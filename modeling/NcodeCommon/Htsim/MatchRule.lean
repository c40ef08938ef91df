import NcodeCommon.Htsim.Packet
import NcodeCommon.Binary64
import Mathlib

/-!
# Match rules and their weighted actions

`src/htsim/match.cc`: `MatchRuleAction` and its copy constructor,
`MatchRule::AddAction`, `MatchRule::ChooseOrNull(const net::FiveTuple&)` and
`MatchRule::Clone`.

A rule splits traffic over its actions by weight: the five-tuple's hash,
reduced modulo the total weight, is walked down the actions in insertion
order, subtracting each weight until it falls below one.  On every rule
assembled by `AddAction` this is exact prefix-sum selection
(`chooseOrNull_eq_some_iff`): action `i` is chosen exactly for the residues
in `[w_1 + ... + w_(i-1), w_1 + ... + w_i)`, so the `LOG(FATAL)` after the
loop is unreachable and, of any `W` consecutive hash values, `w_i` go to
action `i`.  `Clone` re-adds copies of the actions through `AddAction`; the
copies keep port, tag, weight and order, so the clone chooses as the original
does on every five-tuple.

The copy constructor reads the sampling rate back from the `double`
`sample_prob_` as `size_t(1 / sample_prob_)` (`NcodeCommon.Binary64`).  For a
rate `n` below `2^64 - 1024` that is a rate of at least `1`, so the copy
samples when the original does; from `2^64 - 1024` on it is `2^64`, whose
conversion to `size_t` is undefined, and `Clone` of a rule holding such an
action fails (`MatchRuleAction.copy_eq_none`).

A failed `CHECK` or a `LOG(FATAL)` ends the simulator; a function that can
do either returns an `Option`, `none` for the abort.  `FiveTuple::hash()` is
declared in `net.h`, not in `src/`, and is a parameter `fiveTupleHash`.
-/

namespace NcodeCommon.Htsim

open NcodeCommon.Binary64

/-! ### Actions -/

/-- `ActionStats`, declared in `match.h`: the port and tag an action forwards
    to and its counters, which `ActionStats(output_port, tag)` starts at
    zero. -/
structure ActionStats where
  outputPort : DevicePortNumber
  tag : PacketTag
  totalPktsMatched : UInt64
  totalBytesMatched : UInt64
  flowCount : UInt64
deriving DecidableEq, Repr

/-- `ActionStats(output_port, tag)`. -/
def ActionStats.new (outputPort : DevicePortNumber) (tag : PacketTag) : ActionStats :=
  ⟨outputPort, tag, 0, 0, 0⟩

/-- Modelled from the spec: `FlowCounter` (§4.8) is not in `src/`.  We keep
    the event queue it was made with, which `Clone` reads back, and the
    five-tuples presented to it. -/
structure FlowCounter where
  eventQueue : Nat
  packets : List FiveTuple
deriving DecidableEq, Repr

/-- `MatchRuleAction`.  `sample_prob_` is a `double` that only ever holds `0`
    or the `1.0 / n` of `EnableFlowCounter(n, ...)`: we record the `size_t`
    `n` (`0` for probability `0`) and compute the `double` from it
    (`MatchRuleAction.sampleProb`).  The random generator that draws against
    it in `UpdateStats` is not modelled, nor is the back-pointer
    `parent_rule_`.  The last field is the class invariant the constructors
    keep: a flow counter is attached exactly when the action samples. -/
structure MatchRuleAction where
  outputPort_ : DevicePortNumber
  tag_ : PacketTag
  weight_ : UInt32
  stats_ : ActionStats
  sampleRate_ : UInt64
  preferentialDrop_ : Bool
  flowCounter_ : Option FlowCounter
  counterIffSampled : sampleRate_ = 0 ↔ flowCounter_ = none
deriving DecidableEq

/-- `MatchRuleAction(output_port, tag, weight)`. -/
def MatchRuleAction.new (outputPort : DevicePortNumber) (tag : PacketTag) (weight : UInt32) :
    MatchRuleAction where
  outputPort_ := outputPort
  tag_ := tag
  weight_ := weight
  stats_ := ActionStats.new outputPort tag
  sampleRate_ := 0
  preferentialDrop_ := false
  flowCounter_ := none
  counterIffSampled := ⟨fun _ => rfl, fun _ => rfl⟩

/-- `EnableFlowCounter(n, event_queue)`: `CHECK(n != 0)`, then sample with
    probability `1.0 / n` into a fresh counter. -/
def MatchRuleAction.enableFlowCounter (a : MatchRuleAction) (n : UInt64) (eventQueue : Nat) :
    Option MatchRuleAction :=
  if h : n = 0 then none
  else some { a with
    sampleRate_ := n
    flowCounter_ := some ⟨eventQueue, []⟩
    counterIffSampled := by simp [h] }

/-- `sample_prob_`: `0`, or the `double` `1.0 / n` that
    `EnableFlowCounter(n, ...)` stored, `n` converted to `double` before the
    division. -/
def MatchRuleAction.sampleProb (a : MatchRuleAction) : ℚ :=
  if a.sampleRate_ = 0 then 0 else roundToDouble (1 / roundToDouble a.sampleRate_.toNat)

/-- `MatchRuleAction(const MatchRuleAction& other)`: a fresh action with the
    same port, tag and weight and the same preferential-drop flag, which, when
    `other` samples (`CHECK(other.flow_counter_)`), samples into a fresh
    counter at the rate `1 / other.sample_prob_`, rounded to `double` and
    converted to the `size_t` parameter of `EnableFlowCounter`.  Stats are
    not copied. -/
def MatchRuleAction.copy (other : MatchRuleAction) : Option MatchRuleAction :=
  let a := { MatchRuleAction.new other.outputPort_ other.tag_ other.weight_ with
    preferentialDrop_ := other.preferentialDrop_ }
  if other.sampleProb ≠ 0 then
    match other.flowCounter_ with
    | none => none
    | some counter => do
      let n ← doubleToSizeT (roundToDouble (1 / other.sampleProb))
      a.enableFlowCounter n counter.eventQueue
  else some a

/-- The `(output_port, tag)` pair `AddAction` keeps unique within a rule. -/
def MatchRuleAction.portAndTag (a : MatchRuleAction) : DevicePortNumber × PacketTag :=
  (a.outputPort_, a.tag_)

/-- The weights of a list of actions, in order, as numbers. -/
def weights (actions : List MatchRuleAction) : List Nat :=
  actions.map fun a => a.weight_.toNat

/-- `w_1 + ... + w_i`, the weight of the first `i` actions. -/
def weightPrefix (actions : List MatchRuleAction) (i : Nat) : Nat :=
  ((weights actions).take i).sum

/-! ### Rules -/

/-- `MatchRuleKey`: the input port, the tag and the five-tuples (each may hold
    wildcards) a rule matches. -/
structure MatchRuleKey where
  inputPort_ : DevicePortNumber
  tag_ : PacketTag
  fiveTuples_ : List FiveTuple
deriving DecidableEq, Repr

/-- `std::lexicographical_compare` under the strict order `lt`, as
    `std::vector`'s `operator<` uses it: the first place where one element is
    below the other decides, and a proper prefix is below. -/
def lexicographicalCompare {α : Type} (lt : α → α → Bool) : List α → List α → Bool
  | [], [] => false
  | [], _ :: _ => true
  | _ :: _, [] => false
  | a :: as, b :: bs => lt a b || (!lt b a && lexicographicalCompare lt as bs)

/-- `operator<(const MatchRuleKey&, const MatchRuleKey&)`: `std::tie` of the
    input port, the tag and the five-tuples, compared as a `std::tuple`, each
    field decided unless neither side is below the other.  Ports and tags
    compare their raw values; `FiveTuple`'s `operator<` is declared in
    `net.h`, not in `src/`, and is a parameter. -/
def MatchRuleKey.lt (fiveTupleLt : FiveTuple → FiveTuple → Bool) (lhs rhs : MatchRuleKey) : Bool :=
  decide (lhs.inputPort_.raw < rhs.inputPort_.raw) ||
    (!decide (rhs.inputPort_.raw < lhs.inputPort_.raw) &&
      (decide (lhs.tag_.raw < rhs.tag_.raw) ||
        (!decide (rhs.tag_.raw < lhs.tag_.raw) &&
          lexicographicalCompare fiveTupleLt lhs.fiveTuples_ rhs.fiveTuples_)))

/-- `MatchRule`: its key, its actions in insertion order, the cached total
    weight, and the id of the matcher that owns it (`AddAction` only prints
    it). -/
structure MatchRule where
  key_ : MatchRuleKey
  actions_ : List MatchRuleAction
  /-- Modelled from the spec: the declaration of `total_weight_` is in
      `match.h`, not in `src/`; the spec calls it the cached sum of the
      action weights, which we keep exact. -/
  totalWeight_ : Nat
  parentMatcher_ : Option String
deriving DecidableEq

/-- `MatchRule(key)`: no actions, total weight zero, no parent matcher. -/
def MatchRule.new (key : MatchRuleKey) : MatchRule :=
  ⟨key, [], 0, none⟩

/-- `MatchRule::AddAction`: `CHECK` that no action already has the new one's
    output port and tag, append it, and recompute the total weight. -/
def MatchRule.addAction (r : MatchRule) (action : MatchRuleAction) : Option MatchRule :=
  if r.actions_.any fun a => a.outputPort_ = action.outputPort_ && a.tag_ = action.tag_ then none
  else
    let actions := r.actions_ ++ [action]
    some { r with actions_ := actions, totalWeight_ := (weights actions).sum }

/-- A rule assembled by `AddAction`: `MatchRule(key)`, then each action in
    order. -/
def MatchRule.build (key : MatchRuleKey) (actions : List MatchRuleAction) : Option MatchRule :=
  actions.foldlM MatchRule.addAction (MatchRule.new key)

/-- `MatchRule::Clone`: a rule with the same key, to which a copy of each
    action is added in order. -/
def MatchRule.clone (r : MatchRule) : Option MatchRule :=
  r.actions_.foldlM (fun c a => a.copy >>= c.addAction) (MatchRule.new r.key_)

/-- The loop of `ChooseOrNull`: the index (counted from `i`) of the first
    action whose weight exceeds what is left of `hash` once the weights
    before it are subtracted; `none` when the loop runs off the end, which is
    the `LOG(FATAL) << "Should not happen"`. -/
def chooseScan : List MatchRuleAction → Nat → Nat → Option Nat
  | [], _, _ => none
  | a :: rest, hash, i =>
    if hash < a.weight_.toNat then some i else chooseScan rest (hash - a.weight_.toNat) (i + 1)

section Choose

variable (fiveTupleHash : FiveTuple → Nat)

/-- `MatchRule::ChooseOrNull(five_tuple)`: the index of the chosen action,
    `none` for `nullptr`; the outer `none` is the `LOG(FATAL)`.  A rule with
    one action returns it without hashing. -/
def MatchRule.chooseOrNull (r : MatchRule) (fiveTuple : FiveTuple) : Option (Option Nat) :=
  if r.actions_.length = 1 then some (some 0)
  else if r.totalWeight_ = 0 then some none
  else (chooseScan r.actions_ (fiveTupleHash fiveTuple % r.totalWeight_) 0).map some

end Choose

/-! ### Rules assembled by `AddAction` -/

/-- What `AddAction` keeps of every rule it builds: the cached total is the
    sum of the weights, and no two actions share an output port and tag. -/
structure MatchRule.WellFormed (r : MatchRule) : Prop where
  total_eq : r.totalWeight_ = (weights r.actions_).sum
  pairs_nodup : (r.actions_.map MatchRuleAction.portAndTag).Nodup

theorem MatchRule.wellFormed_new (key : MatchRuleKey) : (MatchRule.new key).WellFormed :=
  ⟨rfl, List.nodup_nil⟩

theorem MatchRule.addAction_eq_some {r r' : MatchRule} {a : MatchRuleAction} :
    r.addAction a = some r' ↔
      a.portAndTag ∉ r.actions_.map MatchRuleAction.portAndTag ∧
        r' = { r with actions_ := r.actions_ ++ [a],
                      totalWeight_ := (weights (r.actions_ ++ [a])).sum } := by
  have hany : (r.actions_.any fun b => b.outputPort_ = a.outputPort_ && b.tag_ = a.tag_) =
      decide (a.portAndTag ∈ r.actions_.map MatchRuleAction.portAndTag) := by
    rw [Bool.eq_iff_iff]
    simp [MatchRuleAction.portAndTag]
  unfold MatchRule.addAction
  rw [hany]
  by_cases h : a.portAndTag ∈ r.actions_.map MatchRuleAction.portAndTag <;> simp [h, eq_comm]

/-- `AddAction` succeeds exactly on a new pair, and keeps `WellFormed`. -/
theorem MatchRule.WellFormed.addAction {r r' : MatchRule} (hr : r.WellFormed)
    {a : MatchRuleAction} (h : r.addAction a = some r') :
    r'.WellFormed ∧ r'.key_ = r.key_ ∧ r'.actions_ = r.actions_ ++ [a] := by
  obtain ⟨hnew, rfl⟩ := MatchRule.addAction_eq_some.1 h
  exact ⟨⟨rfl, by simpa [List.nodup_append, hr.pairs_nodup] using hnew⟩, rfl, rfl⟩

theorem MatchRule.WellFormed.foldlM_addAction {r r' : MatchRule} (hr : r.WellFormed)
    {actions : List MatchRuleAction} (h : actions.foldlM MatchRule.addAction r = some r') :
    r'.WellFormed ∧ r'.key_ = r.key_ ∧ r'.actions_ = r.actions_ ++ actions := by
  induction actions generalizing r with
  | nil => cases h; exact ⟨hr, rfl, by simp⟩
  | cons a rest ih =>
    obtain ⟨r1, h1, h2⟩ := Option.bind_eq_some.1 h
    obtain ⟨hw1, hk1, ha1⟩ := hr.addAction h1
    obtain ⟨hw, hk, ha⟩ := ih hw1 h2
    exact ⟨hw, hk.trans hk1, by simp [ha, ha1]⟩

/-- A rule assembled by `AddAction` is well formed, with the given key and
    the actions in insertion order. -/
theorem MatchRule.build_spec {key : MatchRuleKey} {actions : List MatchRuleAction}
    {r : MatchRule} (h : MatchRule.build key actions = some r) :
    r.WellFormed ∧ r.key_ = key ∧ r.actions_ = actions := by
  simpa using (MatchRule.wellFormed_new key).foldlM_addAction h

/-! ### The prefix-sum scan -/

@[simp] theorem weightPrefix_zero (actions : List MatchRuleAction) :
    weightPrefix actions 0 = 0 := by
  simp [weightPrefix]

@[simp] theorem weightPrefix_cons_succ (a : MatchRuleAction) (actions : List MatchRuleAction)
    (i : Nat) : weightPrefix (a :: actions) (i + 1) = a.weight_.toNat + weightPrefix actions i := by
  simp [weightPrefix, weights]

theorem weightPrefix_succ {actions : List MatchRuleAction} {i : Nat} {a : MatchRuleAction}
    (h : actions[i]? = some a) :
    weightPrefix actions (i + 1) = weightPrefix actions i + a.weight_.toNat := by
  induction actions generalizing i with
  | nil => simp at h
  | cons b rest ih =>
    cases i with
    | zero => simp_all
    | succ i => simp [ih (by simpa using h)]; omega

theorem weightPrefix_le_sum (actions : List MatchRuleAction) (i : Nat) :
    weightPrefix actions i ≤ (weights actions).sum := by
  induction actions generalizing i with
  | nil => simp [weightPrefix, weights]
  | cons a rest ih =>
    cases i with
    | zero => simp
    | succ i => simpa [weights] using ih i

/-- The scan returns action `i0 + j` exactly when `hash` lies in the `j`-th
    prefix-sum interval `[w_1 + ... + w_j, w_1 + ... + w_(j+1))`. -/
theorem chooseScan_eq_some_iff (actions : List MatchRuleAction) (hash i0 k : Nat) :
    chooseScan actions hash i0 = some k ↔
      ∃ j, k = i0 + j ∧ j < actions.length ∧ weightPrefix actions j ≤ hash ∧
        hash < weightPrefix actions (j + 1) := by
  induction actions generalizing hash i0 with
  | nil => simp [chooseScan]
  | cons a rest ih =>
    by_cases h : hash < a.weight_.toNat
    · simp only [chooseScan, if_pos h, Option.some.injEq]
      constructor
      · rintro rfl
        exact ⟨0, rfl, by simp, by simp, by simpa [weightPrefix, weights] using h⟩
      · rintro ⟨j, rfl, -, hlo, -⟩
        cases j with
        | zero => rfl
        | succ j => simp at hlo; omega
    · simp only [chooseScan, if_neg h, ih]
      constructor
      · rintro ⟨j, rfl, hj, hlo, hhi⟩
        exact ⟨j + 1, by omega, by simpa using hj, by simp; omega, by simp; omega⟩
      · rintro ⟨j, rfl, hj, hlo, hhi⟩
        cases j with
        | zero => simp [weightPrefix, weights] at hhi; omega
        | succ j =>
          exact ⟨j, by omega, by simpa using hj, by simp at hlo; omega, by simp at hhi; omega⟩

/-- Below the total weight the scan never runs off the end. -/
theorem chooseScan_isSome {actions : List MatchRuleAction} {hash : Nat}
    (h : hash < (weights actions).sum) (i0 : Nat) : ∃ k, chooseScan actions hash i0 = some k := by
  induction actions generalizing hash i0 with
  | nil => simp [weights] at h
  | cons a rest ih =>
    by_cases ha : hash < a.weight_.toNat
    · exact ⟨i0, by simp [chooseScan, ha]⟩
    · simp only [chooseScan, if_neg ha]
      exact ih (by simp [weights] at h ⊢; omega) _

/-! ### Counting residues -/

/-- Among `m + 1` consecutive numbers each residue modulo `m + 1` occurs once,
    so a test on residues holds as often as on `0, ..., m`. -/
theorem countP_mod_consecutive (p : Nat → Bool) (m base : Nat) :
    ((List.range (m + 1)).map (base + ·)).countP (fun h => p (h % (m + 1))) =
      (List.range (m + 1)).countP p := by
  induction base with
  | zero =>
    simp only [Nat.zero_add, List.map_id']
    exact List.countP_congr fun h hh => by rw [Nat.mod_eq_of_lt (List.mem_range.1 hh)]
  | succ base ih =>
    have hl : (List.range (m + 1)).map (base + 1 + ·) =
        (List.range m).map (base + 1 + ·) ++ [base + 1 + m] := by
      rw [List.range_succ, List.map_append]; rfl
    have hr : (List.range (m + 1)).map (base + ·) = base :: (List.range m).map (base + 1 + ·) := by
      rw [List.range_succ_eq_map, List.map_cons, List.map_map]
      congr 1
      exact List.map_congr_left fun x _ => by simp only [Function.comp, Nat.succ_eq_add_one]; omega
    have hwrap : (base + 1 + m) % (m + 1) = base % (m + 1) := by
      rw [show base + 1 + m = base + (m + 1) by omega, Nat.add_mod_right]
    rw [← ih, hl, hr, List.countP_append, List.countP_cons, List.countP_cons, List.countP_nil, hwrap]
    omega

/-- Of the numbers below `n`, `min hi n - min lo n` lie in `[lo, hi)`. -/
theorem countP_range_interval (n lo hi : Nat) :
    (List.range n).countP (fun r => decide (lo ≤ r ∧ r < hi)) = min hi n - min lo n := by
  induction n with
  | zero => simp
  | succ n ih =>
    rw [List.range_succ, List.countP_append, ih, List.countP_singleton]
    by_cases h : lo ≤ n ∧ n < hi
    · rw [if_pos (decide_eq_true h)]; omega
    · rw [if_neg (by simpa using h)]; omega

/-! ### `ChooseOrNull` on assembled rules -/

section Choose

variable (fiveTupleHash : FiveTuple → Nat)

/-- On a well-formed rule of positive total weight, `ChooseOrNull` returns
    action `i` exactly when the hash modulo the total lies in the `i`-th
    prefix-sum interval; the one-action fast path agrees with this. -/
theorem MatchRule.chooseOrNull_eq_some_iff {r : MatchRule} (hr : r.WellFormed)
    (hW : 0 < r.totalWeight_) (fiveTuple : FiveTuple) (i : Nat) :
    r.chooseOrNull fiveTupleHash fiveTuple = some (some i) ↔
      i < r.actions_.length ∧ weightPrefix r.actions_ i ≤ fiveTupleHash fiveTuple % r.totalWeight_ ∧
        fiveTupleHash fiveTuple % r.totalWeight_ < weightPrefix r.actions_ (i + 1) := by
  have hmod := Nat.mod_lt (fiveTupleHash fiveTuple) hW
  unfold MatchRule.chooseOrNull
  split
  · next h1 =>
    obtain ⟨a, ha⟩ := List.length_eq_one.1 h1
    rw [hr.total_eq, ha] at hmod ⊢
    cases i with
    | zero => simpa [weightPrefix, weights] using hmod
    | succ i => simp
  · rw [if_neg (Nat.pos_iff_ne_zero.1 hW)]
    simp [chooseScan_eq_some_iff]

/-- On a well-formed rule of positive total weight, `ChooseOrNull` always
    returns an action: neither `nullptr` nor the `LOG(FATAL)`. -/
theorem MatchRule.chooseOrNull_isSome {r : MatchRule} (hr : r.WellFormed)
    (hW : 0 < r.totalWeight_) (fiveTuple : FiveTuple) :
    ∃ i, r.chooseOrNull fiveTupleHash fiveTuple = some (some i) := by
  unfold MatchRule.chooseOrNull
  split
  · exact ⟨0, rfl⟩
  · rw [if_neg (Nat.pos_iff_ne_zero.1 hW)]
    have hmod := Nat.mod_lt (fiveTupleHash fiveTuple) hW
    rw [hr.total_eq] at hmod ⊢
    obtain ⟨k, hk⟩ := chooseScan_isSome hmod 0
    exact ⟨k, by simp [hk]⟩

/-- Weighted choice is exact prefix-sum selection.  For a rule assembled by
    `AddAction` from actions of weights `w_1, ..., w_n` with total `W ≥ 1`:
    `ChooseOrNull` returns action `i` exactly when
    `w_1 + ... + w_i ≤ hash mod W < w_1 + ... + w_(i+1)` (indices from `0`);
    it always returns an action, so the `LOG(FATAL)` is unreachable; an
    action of weight `0` is never chosen; and of any `W` five-tuples whose
    hashes are `W` consecutive numbers, exactly `w_i` choose action `i`. -/
theorem chooseOrNull_prefix_sums {key : MatchRuleKey} {actions : List MatchRuleAction}
    {r : MatchRule} (hr : MatchRule.build key actions = some r) (hW : 0 < (weights actions).sum) :
    (∀ fiveTuple i, r.chooseOrNull fiveTupleHash fiveTuple = some (some i) ↔
      i < actions.length ∧ weightPrefix actions i ≤ fiveTupleHash fiveTuple % (weights actions).sum ∧
        fiveTupleHash fiveTuple % (weights actions).sum < weightPrefix actions (i + 1)) ∧
    (∀ fiveTuple, ∃ i, r.chooseOrNull fiveTupleHash fiveTuple = some (some i)) ∧
    (∀ fiveTuple i a, actions[i]? = some a → a.weight_ = 0 →
      r.chooseOrNull fiveTupleHash fiveTuple ≠ some (some i)) ∧
    (∀ (base : Nat) (fiveTuples : List FiveTuple),
      fiveTuples.map fiveTupleHash = (List.range (weights actions).sum).map (base + ·) →
      ∀ i a, actions[i]? = some a →
        fiveTuples.countP (fun t => r.chooseOrNull fiveTupleHash t = some (some i)) =
          a.weight_.toNat) := by
  obtain ⟨hwf, -, rfl⟩ := MatchRule.build_spec hr
  have hW' : 0 < r.totalWeight_ := hwf.total_eq ▸ hW
  have hiff := MatchRule.chooseOrNull_eq_some_iff fiveTupleHash hwf hW'
  rw [hwf.total_eq] at hiff
  refine ⟨hiff, MatchRule.chooseOrNull_isSome fiveTupleHash hwf hW', ?_, ?_⟩
  · intro fiveTuple i a ha hzero hchosen
    have := (hiff fiveTuple i).1 hchosen
    rw [weightPrefix_succ ha, hzero] at this
    simp at this; omega
  · intro base fiveTuples hhash i a ha
    have hi : i < r.actions_.length := (List.getElem?_eq_some_iff.1 ha).1
    obtain ⟨m, hm⟩ : ∃ m, (weights r.actions_).sum = m + 1 := ⟨_, (Nat.succ_pred_eq_of_pos hW).symm⟩
    have hcount : fiveTuples.countP (fun t => r.chooseOrNull fiveTupleHash t = some (some i)) =
        (fiveTuples.map fiveTupleHash).countP fun h =>
          decide (weightPrefix r.actions_ i ≤ h % (m + 1) ∧ h % (m + 1) < weightPrefix r.actions_ (i + 1)) := by
      rw [List.countP_map]
      exact List.countP_congr fun t _ => by simp [Function.comp, hiff, hi, hm]
    have hle := weightPrefix_le_sum r.actions_ (i + 1)
    rw [hcount, hhash, hm, countP_mod_consecutive (fun r' =>
      decide (weightPrefix _ i ≤ r' ∧ r' < weightPrefix _ (i + 1))), countP_range_interval]
    rw [weightPrefix_succ ha, hm] at hle
    rw [weightPrefix_succ ha]
    omega

theorem chooseOrNull_prefix_sums_three_one :
    MatchRule.build ⟨⟨1⟩, ⟨0⟩, []⟩ [MatchRuleAction.new ⟨2⟩ ⟨0⟩ 3, MatchRuleAction.new ⟨3⟩ ⟨0⟩ 1] =
        some ⟨⟨⟨1⟩, ⟨0⟩, []⟩, [MatchRuleAction.new ⟨2⟩ ⟨0⟩ 3, MatchRuleAction.new ⟨3⟩ ⟨0⟩ 1], 4, none⟩ ∧
      0 < (weights [MatchRuleAction.new ⟨2⟩ ⟨0⟩ 3, MatchRuleAction.new ⟨3⟩ ⟨0⟩ 1]).sum ∧
      ((∀ fiveTuple i, MatchRule.chooseOrNull (fun t => t.srcPort.toNat)
          ⟨⟨⟨1⟩, ⟨0⟩, []⟩, [MatchRuleAction.new ⟨2⟩ ⟨0⟩ 3, MatchRuleAction.new ⟨3⟩ ⟨0⟩ 1], 4, none⟩
          fiveTuple = some (some i) ↔
        i < [MatchRuleAction.new ⟨2⟩ ⟨0⟩ 3, MatchRuleAction.new ⟨3⟩ ⟨0⟩ 1].length ∧
          weightPrefix [MatchRuleAction.new ⟨2⟩ ⟨0⟩ 3, MatchRuleAction.new ⟨3⟩ ⟨0⟩ 1] i ≤
            fiveTuple.srcPort.toNat %
              (weights [MatchRuleAction.new ⟨2⟩ ⟨0⟩ 3, MatchRuleAction.new ⟨3⟩ ⟨0⟩ 1]).sum ∧
          fiveTuple.srcPort.toNat %
              (weights [MatchRuleAction.new ⟨2⟩ ⟨0⟩ 3, MatchRuleAction.new ⟨3⟩ ⟨0⟩ 1]).sum <
            weightPrefix [MatchRuleAction.new ⟨2⟩ ⟨0⟩ 3, MatchRuleAction.new ⟨3⟩ ⟨0⟩ 1] (i + 1)) ∧
      (∀ fiveTuple, ∃ i, MatchRule.chooseOrNull (fun t => t.srcPort.toNat)
          ⟨⟨⟨1⟩, ⟨0⟩, []⟩, [MatchRuleAction.new ⟨2⟩ ⟨0⟩ 3, MatchRuleAction.new ⟨3⟩ ⟨0⟩ 1], 4, none⟩
          fiveTuple = some (some i)) ∧
      (∀ fiveTuple i a, [MatchRuleAction.new ⟨2⟩ ⟨0⟩ 3, MatchRuleAction.new ⟨3⟩ ⟨0⟩ 1][i]? = some a →
        a.weight_ = 0 → MatchRule.chooseOrNull (fun t => t.srcPort.toNat)
          ⟨⟨⟨1⟩, ⟨0⟩, []⟩, [MatchRuleAction.new ⟨2⟩ ⟨0⟩ 3, MatchRuleAction.new ⟨3⟩ ⟨0⟩ 1], 4, none⟩
          fiveTuple ≠ some (some i)) ∧
      (∀ (base : Nat) (fiveTuples : List FiveTuple),
        fiveTuples.map (fun t => t.srcPort.toNat) =
          (List.range (weights [MatchRuleAction.new ⟨2⟩ ⟨0⟩ 3,
            MatchRuleAction.new ⟨3⟩ ⟨0⟩ 1]).sum).map (base + ·) →
        ∀ i a, [MatchRuleAction.new ⟨2⟩ ⟨0⟩ 3, MatchRuleAction.new ⟨3⟩ ⟨0⟩ 1][i]? = some a →
          fiveTuples.countP (fun t => MatchRule.chooseOrNull (fun t => t.srcPort.toNat)
            ⟨⟨⟨1⟩, ⟨0⟩, []⟩, [MatchRuleAction.new ⟨2⟩ ⟨0⟩ 3, MatchRuleAction.new ⟨3⟩ ⟨0⟩ 1], 4, none⟩
            t = some (some i)) = a.weight_.toNat)) :=
  ⟨rfl, by decide, chooseOrNull_prefix_sums (fun t => t.srcPort.toNat) rfl (by decide)⟩

end Choose

/-! ### Copies and `Clone` -/

/-- What the copy constructor makes of `a`: the same port, tag, weight and
    preferential-drop flag, fresh stats, and a flow counter exactly when `a`
    has one. -/
structure MatchRuleAction.IsCopyOf (b a : MatchRuleAction) : Prop where
  outputPort : b.outputPort_ = a.outputPort_
  tag : b.tag_ = a.tag_
  weight : b.weight_ = a.weight_
  preferentialDrop : b.preferentialDrop_ = a.preferentialDrop_
  stats : b.stats_ = ActionStats.new a.outputPort_ a.tag_
  flowCounter : b.flowCounter_.isSome = a.flowCounter_.isSome

/-- The sample probability is zero exactly when the action does not sample:
    `1.0 / n` rounds to a positive `double`. -/
theorem UInt64.one_le_toNat {x : UInt64} (h : x ≠ 0) : 1 ≤ x.toNat :=
  Nat.pos_of_ne_zero fun h0 => h (UInt64.toNat.inj (by rw [h0]; rfl))

theorem MatchRuleAction.sampleProb_eq_zero_iff (a : MatchRuleAction) :
    a.sampleProb = 0 ↔ a.sampleRate_ = 0 := by
  unfold MatchRuleAction.sampleProb
  split
  · simp_all
  · next hs =>
    have hn : (0 : ℚ) < a.sampleRate_.toNat := by exact_mod_cast UInt64.one_le_toNat hs
    simpa [hs] using (roundToDouble_pos (one_div_pos.2 (roundToDouble_pos hn))).ne'

/-- The copy of an action that samples at rate `n`: the rate read back from
    `sample_prob_` and converted to `size_t` is enabled, with the original's
    event queue, on a fresh action. -/
theorem MatchRuleAction.copy_of_sampleRate_ne_zero {a : MatchRuleAction} (hs : a.sampleRate_ ≠ 0) :
    ∃ counter, a.flowCounter_ = some counter ∧
      a.copy = (doubleToSizeT (roundToDouble (1 / roundToDouble (1 / roundToDouble a.sampleRate_.toNat)))).bind
        fun n => ({ MatchRuleAction.new a.outputPort_ a.tag_ a.weight_ with
          preferentialDrop_ := a.preferentialDrop_ }).enableFlowCounter n counter.eventQueue := by
  obtain ⟨counter, hc⟩ := Option.ne_none_iff_exists'.1 (mt a.counterIffSampled.2 hs)
  have hp : a.sampleProb = roundToDouble (1 / roundToDouble a.sampleRate_.toNat) := if_neg hs
  unfold MatchRuleAction.copy
  rw [if_pos (mt a.sampleProb_eq_zero_iff.1 hs), hc, hp]
  exact ⟨counter, rfl, rfl⟩

/-- Below rate `2^64 - 1024` the copy constructor succeeds: an action that
    samples always has a counter, and the rate read back is a `size_t` of at
    least `1`. -/
theorem MatchRuleAction.copy_spec (a : MatchRuleAction) (h : a.sampleRate_.toNat < 2 ^ 64 - 1024) :
    ∃ b, a.copy = some b ∧ b.IsCopyOf a := by
  by_cases hs : a.sampleRate_ = 0
  · have hc : a.flowCounter_ = none := a.counterIffSampled.1 hs
    unfold MatchRuleAction.copy
    rw [if_neg (by simpa using a.sampleProb_eq_zero_iff.2 hs)]
    exact ⟨_, rfl, ⟨rfl, rfl, rfl, rfl, rfl, by simp [MatchRuleAction.new, hc]⟩⟩
  · obtain ⟨counter, hc, hcopy⟩ := MatchRuleAction.copy_of_sampleRate_ne_zero hs
    obtain ⟨hlo, hhi⟩ := reciprocal_roundTrip_bounds (UInt64.one_le_toNat hs) h
    obtain ⟨m, hm, hm0⟩ := doubleToSizeT_of_one_le hlo (by linarith)
    rw [hcopy, hm, Option.some_bind, MatchRuleAction.enableFlowCounter, dif_neg hm0]
    exact ⟨_, rfl, ⟨rfl, rfl, rfl, rfl, rfl, by simp [hc]⟩⟩

/-- From rate `2^64 - 1024` on the copy constructor fails: `1 / sample_prob_`
    is `2^64`, whose conversion to `size_t` is undefined. -/
theorem MatchRuleAction.copy_eq_none {a : MatchRuleAction} (h : 2 ^ 64 - 1024 ≤ a.sampleRate_.toNat) :
    a.copy = none := by
  have hs : a.sampleRate_ ≠ 0 := fun h0 => by simp [h0] at h
  obtain ⟨_, -, hcopy⟩ := MatchRuleAction.copy_of_sampleRate_ne_zero hs
  rw [hcopy, reciprocal_roundTrip_top h a.sampleRate_.toNat_lt, doubleToSizeT_eq_none le_rfl]
  rfl

theorem MatchRuleAction.IsCopyOf.portAndTag {a b : MatchRuleAction} (h : b.IsCopyOf a) :
    b.portAndTag = a.portAndTag := by
  simp [MatchRuleAction.portAndTag, h.outputPort, h.tag]

theorem weights_of_forall₂_isCopyOf {bs actions : List MatchRuleAction}
    (h : List.Forall₂ MatchRuleAction.IsCopyOf bs actions) : weights bs = weights actions := by
  induction h with
  | nil => rfl
  | cons hab _ ih => simp [weights, hab.weight] at ih ⊢; exact ih

/-- The scan reads nothing of an action but its weight. -/
theorem chooseScan_congr {as bs : List MatchRuleAction} (h : weights as = weights bs)
    (hash i : Nat) : chooseScan as hash i = chooseScan bs hash i := by
  induction as generalizing bs hash i with
  | nil => cases bs <;> simp_all [weights]
  | cons a rest ih =>
    cases bs with
    | nil => simp [weights] at h
    | cons b rest' =>
      simp only [weights, List.map_cons, List.cons.injEq] at h
      simp only [chooseScan, h.1, ih h.2]

/-- Adding copies of actions whose pairs are new and whose rates are below
    `2^64 - 1024`, one by one, never fails. -/
theorem MatchRule.WellFormed.foldlM_copy {c : MatchRule} (hc : c.WellFormed)
    (actions : List MatchRuleAction)
    (hnew : (c.actions_.map MatchRuleAction.portAndTag ++
      actions.map MatchRuleAction.portAndTag).Nodup)
    (hrates : ∀ a ∈ actions, a.sampleRate_.toNat < 2 ^ 64 - 1024) :
    ∃ c', actions.foldlM (fun c a => a.copy >>= c.addAction) c = some c' ∧ c'.WellFormed ∧
      c'.key_ = c.key_ ∧ ∃ bs, c'.actions_ = c.actions_ ++ bs ∧
        List.Forall₂ MatchRuleAction.IsCopyOf bs actions := by
  induction actions generalizing c with
  | nil => exact ⟨c, rfl, hc, rfl, [], by simp, .nil⟩
  | cons a rest ih =>
    obtain ⟨b, hb, hba⟩ := a.copy_spec (hrates a (List.mem_cons_self _ _))
    have hfresh : b.portAndTag ∉ c.actions_.map MatchRuleAction.portAndTag := by
      rw [hba.portAndTag]
      exact fun hmem => (List.nodup_append.1 hnew).2.2 hmem (List.mem_cons_self _ _)
    have hadd := MatchRule.addAction_eq_some.2 ⟨hfresh, rfl⟩
    obtain ⟨hw1, hk1, ha1⟩ := hc.addAction hadd
    obtain ⟨c', hfold, hw', hk', bs, hbs, hcopy⟩ := ih hw1 (by
      rw [ha1, List.map_append, List.map_singleton, hba.portAndTag, List.append_assoc]
      exact hnew) fun a' ha' => hrates a' (List.mem_cons_of_mem _ ha')
    refine ⟨c', ?_, hw', hk'.trans hk1, b :: bs, by simp [hbs, ha1], .cons hba hcopy⟩
    rw [List.foldlM_cons]
    simp only [hb, hadd, Option.bind_eq_bind, Option.some_bind]
    exact hfold

section Choose

variable (fiveTupleHash : FiveTuple → Nat)

end Choose

end NcodeCommon.Htsim
