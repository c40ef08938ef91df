import Mathlib.Data.UInt

/-!
# The delta-packed sequence `PackedUintSeq`

`src/packer.h` declares `PackedUintSeq`, its iterator, the eight byte limits
`kOneByteLimit .. kEightByteLimit`, the eight length codes
`kOneBytePacked .. kEightBytesPacked` and `kMask`; the bodies of `Append`,
`Restore`, `DeflateSingleInteger` and `PackedUintSeqIterator::Next` live in
`packer.cc`, which is not part of `src/`.  Those four are modelled from the
spec (§4.1 and the byte format of §6), with the header's constants: an entry
is one leading byte holding the length code `k` in its top three bits (the
`k…Packed` values) and the low five bits of the delta (`kMask`), followed by
the `k` further bytes of the delta, least significant first.  The delta of a
`(k+1)`-byte entry is below the `(k+1)`-byte limit `2^(8(k+1) - 3)`.

The byte layer is proved first (`leValue_leBytes`, `firstByte_decode`,
`deflateSingleInteger_encodeDelta`); then one `Append` adds one entry
(`PackedUintSeq.append_eq_some`), and an iterator standing before the entries
of a run of appends returns that run (`PackedUintSeqIterator.next_encodeAll`).
The round trip over every encodable sequence follows by induction.
-/

namespace NcodeCommon.Packer

/-! ### Format constants of `packer.h` -/

/-- `kOneByteLimit = 2 ** (8 - 3)`. -/
def kOneByteLimit : Nat := 32
/-- `kTwoByteLimit = 2 ** (16 - 3)`. -/
def kTwoByteLimit : Nat := 8192
/-- `kThreeByteLimit = 2 ** (24 - 3)`. -/
def kThreeByteLimit : Nat := 2097152
/-- `kFourByteLimit = 2 ** (32 - 3)`. -/
def kFourByteLimit : Nat := 536870912
/-- `kFiveByteLimit = 2 ** (40 - 3)`. -/
def kFiveByteLimit : Nat := 137438953472
/-- `kSixByteLimit = 2 ** (48 - 3)`. -/
def kSixByteLimit : Nat := 35184372088832
/-- `kSevenByteLimit = 2 ** (56 - 3)`. -/
def kSevenByteLimit : Nat := 9007199254740992
/-- `kEightByteLimit = 2 ** 61`. -/
def kEightByteLimit : Nat := 2305843009213693952

/-- `kOneBytePacked`: length code 0 in the top three bits. -/
def kOneBytePacked : UInt8 := 0x0
/-- `kTwoBytesPacked`. -/
def kTwoBytesPacked : UInt8 := 0x20
/-- `kThreeBytesPacked`. -/
def kThreeBytesPacked : UInt8 := 0x40
/-- `kFourBytesPacked`. -/
def kFourBytesPacked : UInt8 := 0x60
/-- `kFiveBytesPacked`. -/
def kFiveBytesPacked : UInt8 := 0x80
/-- `kSixBytesPacked`. -/
def kSixBytesPacked : UInt8 := 0xA0
/-- `kSevenBytesPacked`. -/
def kSevenBytesPacked : UInt8 := 0xC0
/-- `kEightBytesPacked`. -/
def kEightBytesPacked : UInt8 := 0xE0

/-- `kMask`: the bits of the first byte that hold the delta. -/
def kMask : UInt8 := 0x1F

/-- The limits in order: a delta below the `k`-th (from 0) takes `k + 1` bytes. -/
def byteLimits : List Nat :=
  [kOneByteLimit, kTwoByteLimit, kThreeByteLimit, kFourByteLimit, kFiveByteLimit, kSixByteLimit,
    kSevenByteLimit, kEightByteLimit]

/-- The length codes in the same order. -/
def bytesPacked : List UInt8 :=
  [kOneBytePacked, kTwoBytesPacked, kThreeBytesPacked, kFourBytesPacked, kFiveBytesPacked,
    kSixBytesPacked, kSevenBytesPacked, kEightBytesPacked]

/-- The `(k+1)`-byte limit is `2^(8(k+1) - 3)`, as the header's comments say. -/
theorem byteLimits_getD : ∀ k : Fin 8, byteLimits.getD k 0 = 32 * 256 ^ k.val := by
  decide

/-! ### Length selection -/

/-- The length code of a delta: the least `k` whose `(k+1)`-byte limit is
    above it. -/
def lengthCode (delta : Nat) : Nat :=
  byteLimits.findIdx (delta < ·)

/-- Every delta below `kEightByteLimit` has a length code, which is the least
    `k` with `delta` below the `(k+1)`-byte limit. -/
theorem lengthCode_spec {delta : Nat} (h : delta < kEightByteLimit) :
    lengthCode delta < 8 ∧ delta < byteLimits.getD (lengthCode delta) 0 ∧
      ∀ j < lengthCode delta, byteLimits.getD j 0 ≤ delta := by
  have hex : ∃ l ∈ byteLimits, decide (delta < l) = true :=
    ⟨kEightByteLimit, by simp [byteLimits], by simpa using h⟩
  have hlt : lengthCode delta < byteLimits.length := List.findIdx_lt_length_of_exists hex
  refine ⟨hlt, ?_, fun j hj => ?_⟩
  · simpa [List.getElem?_eq_getElem hlt] using @List.findIdx_getElem _ _ _ hlt
  · simpa [List.getElem?_eq_getElem (hj.trans hlt)] using List.not_of_lt_findIdx hj

/-! ### Bytes, least significant first -/

/-- The `count` low bytes of `n`, least significant first. -/
def leBytes : Nat → Nat → List UInt8
  | 0, _ => []
  | count + 1, n => n.toUInt8 :: leBytes count (n >>> 8)

/-- The value of bytes read least significant first. -/
def leValue : List UInt8 → Nat
  | [] => 0
  | b :: bs => b.toNat + (leValue bs <<< 8)

@[simp] theorem length_leBytes (count n : Nat) : (leBytes count n).length = count := by
  induction count generalizing n <;> simp [leBytes, *]

theorem leValue_leBytes (count n : Nat) (h : n < 256 ^ count) :
    leValue (leBytes count n) = n := by
  induction count generalizing n with
  | zero => simp_all [leBytes, leValue]
  | succ count ih =>
    have hshift : n >>> 8 < 256 ^ count := by
      rw [Nat.shiftRight_eq_div_pow, Nat.div_lt_iff_lt_mul (by decide)]
      simpa [pow_succ] using h
    have hbyte : n.toUInt8.toNat = n % 256 := rfl
    rw [leBytes, leValue, ih _ hshift, hbyte, Nat.shiftLeft_eq, Nat.shiftRight_eq_div_pow]
    exact Nat.mod_add_div' n 256

/-! ### One entry -/

/-- The first byte of every entry gives back its length code and the five
    delta bits it holds. -/
theorem firstByte_decode : ∀ k < 8, ∀ v < 32,
    bytesPacked.indexOf ((bytesPacked.getD k 0 ||| v.toUInt8) &&& ~~~kMask) = k ∧
      ((bytesPacked.getD k 0 ||| v.toUInt8) &&& kMask).toNat = v := by
  decide

theorem and_kMask (delta : Nat) : delta &&& kMask.toNat = delta % 32 :=
  Nat.and_pow_two_sub_one_eq_mod delta 5

/-- Modelled from the spec: the bytes `Append` emits for a delta.  The first
    byte is the length code `k…Packed` or'ed with the delta's bits under
    `kMask`; the delta's remaining bits follow in `lengthCode delta` bytes,
    least significant first. -/
def encodeDelta (delta : Nat) : List UInt8 :=
  (bytesPacked.getD (lengthCode delta) 0 ||| (delta &&& kMask.toNat).toUInt8) ::
    leBytes (lengthCode delta) (delta >>> 5)

@[simp] theorem length_encodeDelta (delta : Nat) :
    (encodeDelta delta).length = lengthCode delta + 1 := by
  simp [encodeDelta]

/-- `PackedUintSeq`: the bytes, the number of values, and the last value
    appended. -/
structure PackedUintSeq where
  data_ : List UInt8
  len_ : Nat
  lastAppend_ : UInt64
deriving DecidableEq, Repr

/-- `PackedUintSeq()`. -/
def PackedUintSeq.new : PackedUintSeq := ⟨[], 0, 0⟩

/-- `SizeBytes()`. -/
def PackedUintSeq.sizeBytes (s : PackedUintSeq) : Nat := s.data_.length

/-- Modelled from the spec: `DeflateSingleInteger(offset, value)`, the delta
    stored at `offset` and the number of bytes its entry takes.  Reading past
    the end of `data_` is `none`. -/
def PackedUintSeq.deflateSingleInteger (s : PackedUintSeq) (offset : Nat) :
    Option (UInt64 × Nat) := do
  let first ← s.data_[offset]?
  let k := bytesPacked.indexOf (first &&& ~~~kMask)
  let rest := (s.data_.drop (offset + 1)).take k
  if rest.length < k then none
  else some (((first &&& kMask).toNat + (leValue rest <<< 5)).toUInt64, k + 1)

/-- Decoding at the start of an entry gives back its delta and length,
    whatever surrounds it. -/
theorem deflateSingleInteger_encodeDelta {s : PackedUintSeq} (pre post : List UInt8)
    {delta : Nat} (h : delta < kEightByteLimit)
    (hdata : s.data_ = pre ++ encodeDelta delta ++ post) :
    s.deflateSingleInteger pre.length = some (delta.toUInt64, lengthCode delta + 1) := by
  obtain ⟨hk, hlim, -⟩ := lengthCode_spec h
  have hlim' : delta < 32 * 256 ^ lengthCode delta := byteLimits_getD ⟨_, hk⟩ ▸ hlim
  obtain ⟨hcode, hlow⟩ := firstByte_decode _ hk (delta % 32) (Nat.mod_lt _ (by decide))
  have hhigh : leValue (leBytes (lengthCode delta) (delta >>> 5)) = delta / 32 := by
    rw [leValue_leBytes _ _ (by rw [Nat.shiftRight_eq_div_pow]; omega)]
    exact Nat.shiftRight_eq_div_pow delta 5
  rw [encodeDelta, and_kMask, List.append_assoc, List.cons_append] at hdata
  simp only [PackedUintSeq.deflateSingleInteger, hdata, List.getElem?_append_right (le_refl _),
    Nat.sub_self, List.getElem?_cons_zero, Option.bind_eq_bind, Option.some_bind, hcode, List.drop_append,
    List.drop_one, List.tail_cons, List.take_left' (length_leBytes _ _), length_leBytes,
    lt_irrefl, ite_false, hlow, hhigh, Nat.shiftLeft_eq]
  rw [Nat.mod_add_div' delta 32]

/-! ### `Append` -/

/-- Modelled from the spec: `Append(value, bytes)`.  A value below the last
    one, or a delta of `kEightByteLimit` or more, aborts (`none`); otherwise
    the delta's entry is pushed and `*bytes` grows by its length. -/
def PackedUintSeq.append (s : PackedUintSeq) (value : UInt64) (bytes : Nat) :
    Option (PackedUintSeq × Nat) :=
  if value < s.lastAppend_ then none
  else if kEightByteLimit ≤ (value - s.lastAppend_).toNat then none
  else
    let entry := encodeDelta (value - s.lastAppend_).toNat
    some (⟨s.data_ ++ entry, s.len_ + 1, value⟩, bytes + entry.length)

/-- Appending each value of a list in turn, threading `*bytes`. -/
def PackedUintSeq.appendAll (s : PackedUintSeq) (bytes : Nat) (xs : List UInt64) :
    Option (PackedUintSeq × Nat) :=
  xs.foldlM (fun acc value => acc.1.append value acc.2) (s, bytes)

/-- The step an `Append` accepts: no decrease, and a delta below
    `kEightByteLimit`. -/
def EncodableStep (prev value : UInt64) : Prop :=
  prev ≤ value ∧ (value - prev).toNat < kEightByteLimit

instance : DecidableRel EncodableStep := fun _ _ => inferInstanceAs (Decidable (_ ∧ _))

/-- The sequences that can be appended to an empty `PackedUintSeq`:
    non-decreasing from 0, every step below `kEightByteLimit`. -/
def Encodable (xs : List UInt64) : Prop :=
  List.Chain EncodableStep 0 xs

instance decidableChainEncodableStep :
    (prev : UInt64) → (xs : List UInt64) → Decidable (List.Chain EncodableStep prev xs)
  | _, [] => isTrue .nil
  | _, x :: xs =>
    haveI := decidableChainEncodableStep x xs
    decidable_of_iff _ List.chain_cons.symm

instance : DecidablePred Encodable := fun xs => decidableChainEncodableStep 0 xs

/-- The bytes appending `xs` after `prev` adds: one entry per delta. -/
def encodeAll : UInt64 → List UInt64 → List UInt8
  | _, [] => []
  | prev, value :: xs => encodeDelta (value - prev).toNat ++ encodeAll value xs

theorem PackedUintSeq.append_eq_some (s : PackedUintSeq) {value : UInt64} (bytes : Nat)
    (h : EncodableStep s.lastAppend_ value) :
    s.append value bytes =
      some (⟨s.data_ ++ encodeDelta (value - s.lastAppend_).toNat, s.len_ + 1, value⟩,
        bytes + (lengthCode (value - s.lastAppend_).toNat + 1)) := by
  simp [PackedUintSeq.append, UInt64.not_lt.2 h.1, Nat.not_le.2 h.2]

/-- A run of appends of an encodable list adds its entries, one value each,
    and grows `*bytes` by as many bytes as it adds. -/
theorem PackedUintSeq.appendAll_eq (s : PackedUintSeq) (bytes : Nat) {xs : List UInt64}
    (h : List.Chain EncodableStep s.lastAppend_ xs) :
    s.appendAll bytes xs =
      some (⟨s.data_ ++ encodeAll s.lastAppend_ xs, s.len_ + xs.length,
        xs.getLastD s.lastAppend_⟩, bytes + (encodeAll s.lastAppend_ xs).length) := by
  induction xs generalizing s bytes with
  | nil => simp [PackedUintSeq.appendAll, encodeAll]
  | cons x xs ih =>
    obtain ⟨hx, hxs⟩ := List.chain_cons.1 h
    have step := ih ⟨s.data_ ++ encodeDelta (x - s.lastAppend_).toNat, s.len_ + 1, x⟩
      (bytes + (lengthCode (x - s.lastAppend_).toNat + 1)) hxs
    simp only [PackedUintSeq.appendAll] at step ⊢
    simp only [List.foldlM_cons, s.append_eq_some bytes hx, Option.bind_eq_bind, Option.some_bind,
      step, encodeAll, List.append_assoc, List.length_append, length_encodeDelta, List.length_cons,
      List.getLastD_cons, Option.some.injEq, Prod.mk.injEq, PackedUintSeq.mk.injEq]
    exact ⟨⟨trivial, by omega, trivial⟩, by omega⟩

/-! ### The iterator -/

/-- `PackedUintSeqIterator`: the offset of the next entry, the last value
    returned, and how many values were returned. -/
structure PackedUintSeqIterator where
  nextOffset_ : Nat
  prevValue_ : UInt64
  elementCount_ : Nat
deriving DecidableEq, Repr

/-- `PackedUintSeqIterator(parent)`. -/
def PackedUintSeqIterator.new : PackedUintSeqIterator := ⟨0, 0, 0⟩

/-- Modelled from the spec: `Next(value)`.  Once `len_` values were returned
    it returns false (`none`); otherwise it decodes the entry at
    `next_offset_` and adds its delta to the last value.  The outer `none` is a
    read past the end of `data_`. -/
def PackedUintSeqIterator.next (parent : PackedUintSeq) (it : PackedUintSeqIterator) :
    Option (Option UInt64 × PackedUintSeqIterator) :=
  if it.elementCount_ = parent.len_ then some (none, it)
  else (parent.deflateSingleInteger it.nextOffset_).map fun (delta, increment) =>
    (some (it.prevValue_ + delta),
      ⟨it.nextOffset_ + increment, it.prevValue_ + delta, it.elementCount_ + 1⟩)

/-- The results of `n` calls of `Next`, or `none` if one of them reads past
    the end. -/
def PackedUintSeqIterator.calls (parent : PackedUintSeq) :
    Nat → PackedUintSeqIterator → Option (List (Option UInt64))
  | 0, _ => some []
  | n + 1, it => do
    let (r, it') ← it.next parent
    let rs ← calls parent n it'
    pure (r :: rs)

/-- Modelled from the spec: the loop of `Restore`, calling `Next` until it
    returns false.  `fuel` bounds the calls; `Next` returns true at most `len_`
    times, so `restore` gives `len_ + 1`. -/
def PackedUintSeqIterator.drain (parent : PackedUintSeq) :
    Nat → PackedUintSeqIterator → Option (List UInt64)
  | 0, _ => some []
  | fuel + 1, it => do
    match ← it.next parent with
    | (none, _) => pure []
    | (some v, it') => (v :: ·) <$> drain parent fuel it'

/-- Modelled from the spec: `Restore()`. -/
def PackedUintSeq.restore (s : PackedUintSeq) : Option (List UInt64) :=
  PackedUintSeqIterator.new.drain s (s.len_ + 1)

theorem toUInt64_toNat (a : UInt64) : a.toNat.toUInt64 = a := by
  apply UInt64.eq_of_val_eq
  simp [Nat.toUInt64, UInt64.ofNat, UInt64.toNat, Fin.ofNat]

/-- Once `len_` values were returned, `Next` returns false and stays put. -/
theorem PackedUintSeqIterator.next_of_count_eq {parent : PackedUintSeq}
    (it : PackedUintSeqIterator) (h : it.elementCount_ = parent.len_) :
    next parent it = some (none, it) := by
  simp [next, h]

/-- One `Next` from the start of the entries of a run of appends returns the
    run's first value and stands before the entries of the rest. -/
theorem PackedUintSeqIterator.next_encodeAll {parent : PackedUintSeq} {pre : List UInt8}
    {prev y : UInt64} {n : Nat} {ys : List UInt64} (hy : EncodableStep prev y)
    (hdata : parent.data_ = pre ++ encodeAll prev (y :: ys))
    (hlen : parent.len_ = n + (ys.length + 1)) :
    next parent ⟨pre.length, prev, n⟩ =
      some (some y, ⟨(pre ++ encodeDelta (y - prev).toNat).length, y, n + 1⟩) := by
  have hdec := deflateSingleInteger_encodeDelta pre (encodeAll y ys) hy.2
    (by rw [hdata, encodeAll, List.append_assoc])
  simp [next, hlen, hdec, toUInt64_toNat, add_sub_cancel]

/-- An iterator that returned every value keeps returning false. -/
theorem PackedUintSeqIterator.calls_of_count_eq {parent : PackedUintSeq}
    (it : PackedUintSeqIterator) (h : it.elementCount_ = parent.len_) (k : Nat) :
    calls parent k it = some (List.replicate k none) := by
  induction k with
  | zero => rfl
  | succ k ih => simp [calls, next_of_count_eq it h, ih, List.replicate_succ]

/-- An iterator standing before the entries of a run of appends returns the
    run's values, then false on every further call. -/
theorem PackedUintSeqIterator.calls_encodeAll {parent : PackedUintSeq} {pre : List UInt8}
    {prev : UInt64} {n : Nat} {ys : List UInt64} (hy : List.Chain EncodableStep prev ys)
    (hdata : parent.data_ = pre ++ encodeAll prev ys) (hlen : parent.len_ = n + ys.length)
    (k : Nat) :
    calls parent (ys.length + k) ⟨pre.length, prev, n⟩ =
      some (ys.map some ++ List.replicate k none) := by
  induction ys generalizing pre prev n with
  | nil => simpa using calls_of_count_eq ⟨pre.length, prev, n⟩ (by simpa using hlen.symm) k
  | cons y ys ih =>
    obtain ⟨hy, hys⟩ := List.chain_cons.1 hy
    have hrest := @ih (pre ++ encodeDelta (y - prev).toNat) y (n + 1) hys
      (by rw [hdata, encodeAll, List.append_assoc]) (by rw [hlen, List.length_cons]; omega)
    rw [List.length_cons, Nat.add_right_comm]
    simp only [calls, next_encodeAll hy hdata hlen, Option.bind_eq_bind, Option.some_bind, hrest]
    rfl

/-- `Restore`'s loop, from before the entries of a run of appends, returns
    the run, given a call more than the run's length. -/
theorem PackedUintSeqIterator.drain_encodeAll {parent : PackedUintSeq} {pre : List UInt8}
    {prev : UInt64} {n : Nat} {ys : List UInt64} (hy : List.Chain EncodableStep prev ys)
    (hdata : parent.data_ = pre ++ encodeAll prev ys) (hlen : parent.len_ = n + ys.length)
    {fuel : Nat} (hfuel : ys.length < fuel) :
    drain parent fuel ⟨pre.length, prev, n⟩ = some ys := by
  obtain ⟨fuel, rfl⟩ : ∃ f, fuel = f + 1 := ⟨fuel - 1, by omega⟩
  induction ys generalizing pre prev n fuel with
  | nil =>
    simp only [drain, next_of_count_eq ⟨pre.length, prev, n⟩ (by simpa using hlen.symm),
      Option.bind_eq_bind, Option.some_bind]
    rfl
  | cons y ys ih =>
    obtain ⟨hy, hys⟩ := List.chain_cons.1 hy
    obtain ⟨f, rfl⟩ : ∃ f, fuel = f + 1 := ⟨fuel - 1, by simp at hfuel; omega⟩
    have hrest := @ih (pre ++ encodeDelta (y - prev).toNat) y (n + 1) hys
      (by rw [hdata, encodeAll, List.append_assoc]) (by rw [hlen, List.length_cons]; omega)
      f (by simp at hfuel; omega)
    rw [drain]
    simp only [next_encodeAll hy hdata hlen, Option.bind_eq_bind, Option.some_bind, hrest]
    rfl

/-! ### The round trip -/

theorem appendAll_restore_iterator (xs : List UInt64) (hx : Encodable xs) :
    (∃ s, PackedUintSeq.new.appendAll 0 xs = some (s, s.sizeBytes) ∧ s.restore = some xs ∧
      ∀ k, PackedUintSeqIterator.new.calls s (xs.length + k) =
        some (xs.map some ++ List.replicate k none)) ∧
    ∀ (s : PackedUintSeq) (value : UInt64) (bytes : Nat), EncodableStep s.lastAppend_ value →
      ∃ s' k, s.append value bytes = some (s', bytes + (k + 1)) ∧
        s'.sizeBytes = s.sizeBytes + (k + 1) ∧
        (value - s.lastAppend_).toNat < byteLimits.getD k 0 ∧
        ∀ j < k, byteLimits.getD j 0 ≤ (value - s.lastAppend_).toNat := by
  have hrun := PackedUintSeq.new.appendAll_eq 0 hx
  simp only [PackedUintSeq.new, List.nil_append, Nat.zero_add] at hrun
  refine ⟨⟨_, hrun, ?_, fun k => ?_⟩, fun s value bytes h => ?_⟩
  · exact @PackedUintSeqIterator.drain_encodeAll _ [] 0 0 xs hx rfl (Nat.zero_add _).symm _
      (Nat.lt_succ_self _)
  · exact @PackedUintSeqIterator.calls_encodeAll _ [] 0 0 xs hx rfl (Nat.zero_add _).symm k
  · obtain ⟨-, hlim, hleast⟩ := lengthCode_spec h.2
    refine ⟨_, _, s.append_eq_some bytes h, ?_, hlim, hleast⟩
    simp [PackedUintSeq.sizeBytes]

/-- The spec's four-value sequence. -/
theorem appendAll_restore_iterator_four_values :
    Encodable [0, 1, 33, 8193] ∧
    ((∃ s, PackedUintSeq.new.appendAll 0 [0, 1, 33, 8193] = some (s, s.sizeBytes) ∧
      s.restore = some [0, 1, 33, 8193] ∧
      ∀ k, PackedUintSeqIterator.new.calls s ([0, 1, 33, 8193].length + k) =
        some ([0, 1, 33, 8193].map some ++ List.replicate k none)) ∧
    ∀ (s : PackedUintSeq) (value : UInt64) (bytes : Nat), EncodableStep s.lastAppend_ value →
      ∃ s' k, s.append value bytes = some (s', bytes + (k + 1)) ∧
        s'.sizeBytes = s.sizeBytes + (k + 1) ∧
        (value - s.lastAppend_).toNat < byteLimits.getD k 0 ∧
        ∀ j < k, byteLimits.getD j 0 ≤ (value - s.lastAppend_).toNat) :=
  ⟨by decide, appendAll_restore_iterator _ (by decide)⟩

end NcodeCommon.Packer
