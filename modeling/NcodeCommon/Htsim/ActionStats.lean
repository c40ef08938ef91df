import NcodeCommon.Htsim.MatchRule

/-!
# Action statistics

`src/htsim/match.cc` counts what each action forwards:
`MatchRuleAction::UpdateStats` adds one packet and its size and presents the
packet to the flow counter when the action samples it,
`MatchRuleAction::MergeStats` adds the counters of another action's stats,
`MatchRule::ChooseOrNull(const Packet&)` updates the action it chooses, and
`MatchRule::MergeStats` merges into each action of a rule the stats of the
actions of another rule that have its output port and tag.

Both counters are `uint64_t`.  `MergeStats` `CHECK`s both sums but
`UpdateStats` only the byte counter: over any run of the two calls that does
not abort, the byte counter is the exact sum of what was added while the
packet counter is that sum modulo `2^64` (`runStats_counters`), and one update
takes it from `2^64 - 1` to `0` (`runStats_pkts_wrap`).  On rules assembled by
`AddAction` the rule merge pairs each action with the one action of the other
rule that has its output port and tag, if any (`mergeStats_pairs`).
-/

namespace NcodeCommon.Htsim

/-! ### `UpdateStats` and `MergeStats` -/

/-- Modelled from the spec: `FlowCounter::NewPacket(five_tuple)` presents a
    sampled packet to the counter (§4.8). -/
def FlowCounter.newPacket (c : FlowCounter) (fiveTuple : FiveTuple) : FlowCounter :=
  { c with packets := c.packets ++ [fiveTuple] }

/-- `stats` with the packet and byte counters of `other` added. -/
def ActionStats.addCounters (stats other : ActionStats) : ActionStats :=
  { stats with
    totalPktsMatched := stats.totalPktsMatched + other.totalPktsMatched
    totalBytesMatched := stats.totalBytesMatched + other.totalBytesMatched }

/-- `MatchRuleAction::UpdateStats(packet)`: add the size to the byte counter
    and one to the packet counter, `CHECK` that the byte counter did not wrap,
    and, when the action samples, present the packet to the flow counter if
    the draw of the action's generator fell within the sample probability.
    The generator is not modelled: `sampled` is the draw's outcome. -/
def MatchRuleAction.updateStats (a : MatchRuleAction) (packet : Packet) (sampled : Bool) :
    Option MatchRuleAction :=
  let prev := a.stats_.totalBytesMatched
  let stats := { a.stats_ with
    totalBytesMatched := a.stats_.totalBytesMatched + packet.sizeBytes.toUInt64
    totalPktsMatched := a.stats_.totalPktsMatched + 1 }
  if prev ≤ stats.totalBytesMatched then
    some { a with
      stats_ := stats
      flowCounter_ := if a.sampleProb ≠ 0 ∧ sampled = true then
          a.flowCounter_.map (·.newPacket packet.fiveTuple) else a.flowCounter_
      counterIffSampled := by split_ifs <;> simp [a.counterIffSampled] }
  else none

/-- `MatchRuleAction::MergeStats(stats)`: add the counters of `stats`, not its
    flow count, and `CHECK` that neither sum wrapped. -/
def MatchRuleAction.mergeStats (a : MatchRuleAction) (stats : ActionStats) : Option MatchRuleAction :=
  let merged := a.stats_.addCounters stats
  if a.stats_.totalBytesMatched ≤ merged.totalBytesMatched ∧
      a.stats_.totalPktsMatched ≤ merged.totalPktsMatched then
    some { a with stats_ := merged }
  else none

theorem UInt64.toNat_add_of_le {x y : UInt64} (h : x ≤ x + y) : (x + y).toNat = x.toNat + y.toNat := by
  have hle : x.toNat ≤ (x + y).toNat := h
  have hx := x.toNat_lt
  have hy := y.toNat_lt
  rw [UInt64.toNat_add] at hle ⊢
  simp only [UInt64.size] at *
  omega

/-- What a completed `UpdateStats` did: both counters moved by the packet,
    the byte counter without wrapping, and nothing but the stats and the flow
    counter changed. -/
theorem MatchRuleAction.updateStats_eq_some {a a' : MatchRuleAction} {packet : Packet} {sampled : Bool}
    (h : a.updateStats packet sampled = some a') :
    a'.stats_ = { a.stats_ with
      totalBytesMatched := a.stats_.totalBytesMatched + packet.sizeBytes.toUInt64
      totalPktsMatched := a.stats_.totalPktsMatched + 1 } ∧
    a'.stats_.totalBytesMatched.toNat = a.stats_.totalBytesMatched.toNat + packet.sizeBytes.toNat ∧
    a'.outputPort_ = a.outputPort_ ∧ a'.tag_ = a.tag_ ∧ a'.weight_ = a.weight_ ∧
    a'.preferentialDrop_ = a.preferentialDrop_ := by
  unfold MatchRuleAction.updateStats at h
  dsimp only at h
  by_cases hle : a.stats_.totalBytesMatched ≤ a.stats_.totalBytesMatched + packet.sizeBytes.toUInt64
  · rw [if_pos hle] at h
    cases h
    exact ⟨rfl, UInt64.toNat_add_of_le hle, rfl, rfl, rfl, rfl⟩
  · rw [if_neg hle] at h
    cases h

/-- What a completed `MergeStats` did: both counters moved by `stats`,
    without wrapping, and nothing else changed. -/
theorem MatchRuleAction.mergeStats_eq_some {a a' : MatchRuleAction} {stats : ActionStats}
    (h : a.mergeStats stats = some a') :
    a' = { a with stats_ := a.stats_.addCounters stats } ∧
    a'.stats_.totalBytesMatched.toNat = a.stats_.totalBytesMatched.toNat + stats.totalBytesMatched.toNat ∧
    a'.stats_.totalPktsMatched.toNat = a.stats_.totalPktsMatched.toNat + stats.totalPktsMatched.toNat := by
  unfold MatchRuleAction.mergeStats at h
  dsimp only at h
  split at h
  · next hle =>
    cases h
    exact ⟨rfl, UInt64.toNat_add_of_le hle.1, UInt64.toNat_add_of_le hle.2⟩
  · cases h

/-! ### Runs of calls on one action -/

/-- A call that changes an action's counters. -/
inductive StatsCall where
  | updateStats (packet : Packet) (sampled : Bool)
  | mergeStats (stats : ActionStats)

/-- What a call adds to the packet counter. -/
def StatsCall.pkts : StatsCall → Nat
  | .updateStats _ _ => 1
  | .mergeStats stats => stats.totalPktsMatched.toNat

/-- What a call adds to the byte counter. -/
def StatsCall.bytes : StatsCall → Nat
  | .updateStats packet _ => packet.sizeBytes.toNat
  | .mergeStats stats => stats.totalBytesMatched.toNat

/-- One call on an action. -/
def MatchRuleAction.call (a : MatchRuleAction) : StatsCall → Option MatchRuleAction
  | .updateStats packet sampled => a.updateStats packet sampled
  | .mergeStats stats => a.mergeStats stats

/-- A sequence of calls on an action; `none` when one of them aborts. -/
def MatchRuleAction.runStats (a : MatchRuleAction) (calls : List StatsCall) : Option MatchRuleAction :=
  calls.foldlM MatchRuleAction.call a

/-- One call adds exactly to the byte counter and modulo `2^64` to the packet
    counter. -/
theorem MatchRuleAction.call_counters {a a' : MatchRuleAction} {c : StatsCall} (h : a.call c = some a') :
    a'.stats_.totalBytesMatched.toNat = a.stats_.totalBytesMatched.toNat + c.bytes ∧
    a'.stats_.totalPktsMatched.toNat = (a.stats_.totalPktsMatched.toNat + c.pkts) % 2 ^ 64 := by
  cases c with
  | updateStats packet sampled =>
    obtain ⟨hs, hbytes, -⟩ := MatchRuleAction.updateStats_eq_some h
    refine ⟨hbytes, ?_⟩
    rw [hs]
    exact UInt64.toNat_add _ _
  | mergeStats stats =>
    obtain ⟨-, hbytes, hpkts⟩ := MatchRuleAction.mergeStats_eq_some h
    have hlt := a'.stats_.totalPktsMatched.toNat_lt
    rw [hpkts] at hlt
    exact ⟨hbytes, by rw [hpkts, StatsCall.pkts, Nat.mod_eq_of_lt hlt]⟩

/-- Over every run of `UpdateStats` and `MergeStats` calls that completes, the
    byte counter is its initial value plus every size and merged byte count,
    exactly; the packet counter is its initial value plus the number of
    updates and the merged packet counts, but only modulo `2^64`. -/
theorem runStats_counters {a a' : MatchRuleAction} {calls : List StatsCall}
    (h : a.runStats calls = some a') :
    a'.stats_.totalBytesMatched.toNat = a.stats_.totalBytesMatched.toNat + (calls.map StatsCall.bytes).sum ∧
    a'.stats_.totalPktsMatched.toNat =
      (a.stats_.totalPktsMatched.toNat + (calls.map StatsCall.pkts).sum) % 2 ^ 64 := by
  induction calls generalizing a with
  | nil =>
    cases h
    exact ⟨rfl, (Nat.mod_eq_of_lt (UInt64.toNat_lt _)).symm⟩
  | cons c calls ih =>
    obtain ⟨a₁, h₁, hrest⟩ := Option.bind_eq_some.1 h
    obtain ⟨hb₁, hp₁⟩ := MatchRuleAction.call_counters h₁
    obtain ⟨hb, hp⟩ := ih hrest
    simp only [List.map_cons, List.sum_cons]
    refine ⟨by omega, ?_⟩
    rw [hp, hp₁, Nat.mod_add_mod, Nat.add_assoc]

/-- A five-tuple for the example runs. -/
def statsFiveTuple : FiveTuple := ⟨1, 2, 6, 3, 4⟩

/-- The counters of a run of one merge and one update. -/
theorem runStats_counters_merge_update :
    ∃ a', (MatchRuleAction.new ⟨1⟩ ⟨0⟩ 1).runStats
        [.mergeStats ⟨⟨1⟩, ⟨0⟩, 2, 3000, 0⟩, .updateStats ⟨statsFiveTuple, 1500, ⟨0⟩⟩ false] = some a' ∧
      a'.stats_.totalBytesMatched.toNat = 0 + (3000 + 1500) ∧
      a'.stats_.totalPktsMatched.toNat = (0 + (2 + 1)) % 2 ^ 64 := by
  refine ⟨_, rfl, ?_⟩
  simpa using @runStats_counters (MatchRuleAction.new ⟨1⟩ ⟨0⟩ 1) _
    [.mergeStats ⟨⟨1⟩, ⟨0⟩, 2, 3000, 0⟩, .updateStats ⟨statsFiveTuple, 1500, ⟨0⟩⟩ false] rfl

/-- A fresh action that merges a packet count of `2^64 - 1` and then counts
    one packet: no `CHECK` fails, and the packet counter reads `0`, where the
    unbounded count is `2^64`. -/
theorem runStats_pkts_wrap :
    ((MatchRuleAction.new ⟨1⟩ ⟨0⟩ 1).runStats
      [.mergeStats ⟨⟨1⟩, ⟨0⟩, 0xFFFFFFFFFFFFFFFF, 0, 0⟩,
       .updateStats ⟨statsFiveTuple, 1, ⟨0⟩⟩ false]).map (·.stats_.totalPktsMatched) = some 0 := by
  decide

/-! ### Rules -/

/-- The body of the inner loop of `MatchRule::MergeStats`: merge the stats
    of `otherAction` (`Stats(false)`, which is its `stats_`) when it has the
    action's tag and output port. -/
def MatchRuleAction.mergeMatching (action otherAction : MatchRuleAction) : Option MatchRuleAction :=
  if action.tag_ = otherAction.tag_ ∧ action.outputPort_ = otherAction.outputPort_ then
    action.mergeStats otherAction.stats_
  else some action

/-- `MatchRule::MergeStats(other_rule)`: for each action in order, run over
    the actions of `other_rule` merging those with its tag and output port. -/
def MatchRule.mergeStats (r other : MatchRule) : Option MatchRule := do
  let actions ← r.actions_.mapM fun action => other.actions_.foldlM MatchRuleAction.mergeMatching action
  some { r with actions_ := actions }

theorem MatchRuleAction.mergeMatching_iff (action otherAction : MatchRuleAction) :
    (action.tag_ = otherAction.tag_ ∧ action.outputPort_ = otherAction.outputPort_) ↔
      otherAction.portAndTag = action.portAndTag := by
  simp [MatchRuleAction.portAndTag, and_comm, eq_comm]

/-- Actions of another pair leave an action as it is. -/
theorem MatchRuleAction.foldlM_mergeMatching_of_ne (action : MatchRuleAction) {others : List MatchRuleAction}
    (h : ∀ b ∈ others, b.portAndTag ≠ action.portAndTag) :
    others.foldlM MatchRuleAction.mergeMatching action = some action := by
  induction others with
  | nil => rfl
  | cons b others ih =>
    have hb : ¬(action.tag_ = b.tag_ ∧ action.outputPort_ = b.outputPort_) := by
      rw [MatchRuleAction.mergeMatching_iff]
      exact h b (List.mem_cons_self _ _)
    simp only [List.foldlM_cons, MatchRuleAction.mergeMatching, if_neg hb, Option.bind_eq_bind,
      Option.some_bind]
    exact ih fun b' hb' => h b' (List.mem_cons_of_mem _ hb')

/-- Over actions with distinct pairs, the inner loop merges the stats of the
    one action with `action`'s pair, if there is one. -/
theorem MatchRuleAction.foldlM_mergeMatching {action action' : MatchRuleAction}
    {others : List MatchRuleAction} (hnodup : (others.map MatchRuleAction.portAndTag).Nodup)
    (h : others.foldlM MatchRuleAction.mergeMatching action = some action') :
    action' = match others.find? (·.portAndTag = action.portAndTag) with
      | some b => { action with stats_ := action.stats_.addCounters b.stats_ }
      | none => action := by
  induction others generalizing action with
  | nil => cases h; rfl
  | cons b others ih =>
    rw [List.map_cons, List.nodup_cons] at hnodup
    obtain ⟨a₁, h₁, hrest⟩ := Option.bind_eq_some.1 h
    unfold MatchRuleAction.mergeMatching at h₁
    by_cases hb : b.portAndTag = action.portAndTag
    · -- `b` is the one action with the pair: it is merged, and no later one matches
      rw [if_pos ((MatchRuleAction.mergeMatching_iff _ _).2 hb)] at h₁
      obtain ⟨rfl, -⟩ := MatchRuleAction.mergeStats_eq_some h₁
      have hne : ∀ b' ∈ others, b'.portAndTag ≠ action.portAndTag := fun b' hb' heq =>
        hnodup.1 (hb ▸ heq ▸ List.mem_map_of_mem _ hb')
      rw [MatchRuleAction.foldlM_mergeMatching_of_ne { action with
        stats_ := action.stats_.addCounters b.stats_ } hne] at hrest
      simp [List.find?_cons, hb, ← Option.some.inj hrest]
    · rw [if_neg (mt (MatchRuleAction.mergeMatching_iff _ _).1 hb)] at h₁
      cases h₁
      simpa [List.find?_cons, hb] using ih hnodup.2 hrest

/-- The outer loop: each action of the rule gets its pair's stats. -/
theorem MatchRuleAction.mapM_mergeMatching {others : List MatchRuleAction}
    (hnodup : (others.map MatchRuleAction.portAndTag).Nodup) {as actions : List MatchRuleAction}
    (h : as.mapM (fun a => others.foldlM MatchRuleAction.mergeMatching a) = some actions) :
    actions = as.map fun a =>
      match others.find? (·.portAndTag = a.portAndTag) with
      | some b => { a with stats_ := a.stats_.addCounters b.stats_ }
      | none => a := by
  induction as generalizing actions with
  | nil => cases h; rfl
  | cons a rest ih =>
    simp only [List.mapM_cons, Option.bind_eq_bind, Option.bind_eq_some, Option.some.injEq] at h
    obtain ⟨a', ha', rest', hrest', hpure⟩ := h
    cases hpure
    rw [List.map_cons, ← MatchRuleAction.foldlM_mergeMatching hnodup ha', ih hrest']

/-- Merging the stats of a rule assembled by `AddAction` pairs actions one to
    one: each action of `r` gets the counters of the action of `other` with
    its output port and tag added, or keeps its stats when `other` has none;
    the key, the weights and the order of the actions are unchanged, and the
    stats of an action of `other` whose pair `r` lacks go nowhere. -/
theorem mergeStats_pairs {r other r' : MatchRule} (hother : other.WellFormed)
    (h : r.mergeStats other = some r') :
    r' = { r with actions_ := r.actions_.map fun a =>
      match other.actions_.find? (·.portAndTag = a.portAndTag) with
      | some b => { a with stats_ := a.stats_.addCounters b.stats_ }
      | none => a } := by
  obtain ⟨actions, hactions, hr'⟩ := Option.bind_eq_some.1 h
  cases hr'
  rw [MatchRuleAction.mapM_mergeMatching hother.pairs_nodup hactions]

/-- Two rules of two actions each that share one pair. -/
theorem mergeStats_pairs_shared_pair :
    let a₁ := MatchRuleAction.new ⟨1⟩ ⟨0⟩ 1
    let a₂ := MatchRuleAction.new ⟨2⟩ ⟨0⟩ 1
    let b₂ := { MatchRuleAction.new ⟨2⟩ ⟨0⟩ 3 with stats_ := ⟨⟨2⟩, ⟨0⟩, 5, 7000, 0⟩ }
    let b₃ := { MatchRuleAction.new ⟨3⟩ ⟨0⟩ 1 with stats_ := ⟨⟨3⟩, ⟨0⟩, 1, 100, 0⟩ }
    let key : MatchRuleKey := ⟨⟨1⟩, ⟨0⟩, [statsFiveTuple]⟩
    let r : MatchRule := ⟨key, [a₁, a₂], 2, none⟩
    let other : MatchRule := ⟨key, [b₃, b₂], 4, none⟩
    other.WellFormed ∧ r.mergeStats other = some { r with
      actions_ := [a₁, { a₂ with stats_ := ⟨⟨2⟩, ⟨0⟩, 5, 7000, 0⟩ }] } ∧
    { r with actions_ := [a₁, { a₂ with stats_ := ⟨⟨2⟩, ⟨0⟩, 5, 7000, 0⟩ }] } =
      { r with actions_ := r.actions_.map fun a =>
        match other.actions_.find? (·.portAndTag = a.portAndTag) with
        | some b => { a with stats_ := a.stats_.addCounters b.stats_ }
        | none => a } :=
  ⟨⟨by decide, by decide⟩, by decide, mergeStats_pairs ⟨by decide, by decide⟩ (by decide)⟩

/-! ### Choosing an action for a packet -/

section Hash

variable (fiveTupleHash : FiveTuple → Nat)

/-- `MatchRule::ChooseOrNull(const Packet&)`: choose an action for the
    packet's five-tuple and update the chosen action's stats.  The chosen
    index (`none` for `nullptr`) and the rule with that action updated; the
    outer `none` is an abort. -/
def MatchRule.chooseOrNullPacket (r : MatchRule) (packet : Packet) (sampled : Bool) :
    Option (Option Nat × MatchRule) := do
  match ← r.chooseOrNull fiveTupleHash packet.fiveTuple with
  | none => some (none, r)
  | some i =>
    let action ← r.actions_.get? i
    let action' ← action.updateStats packet sampled
    some (some i, { r with actions_ := r.actions_.set i action' })

/-- What a completed `ChooseOrNull(packet)` did: the choice is
    `ChooseOrNull(five_tuple)`'s, and exactly the chosen action, if any, was
    updated. -/
theorem MatchRule.chooseOrNullPacket_eq_some {r r' : MatchRule} {packet : Packet} {sampled : Bool}
    {i? : Option Nat} (h : r.chooseOrNullPacket fiveTupleHash packet sampled = some (i?, r')) :
    r.chooseOrNull fiveTupleHash packet.fiveTuple = some i? ∧
    match i? with
    | none => r' = r
    | some i => ∃ action action', r.actions_.get? i = some action ∧
        action.updateStats packet sampled = some action' ∧
        r' = { r with actions_ := r.actions_.set i action' } := by
  unfold MatchRule.chooseOrNullPacket at h
  obtain ⟨c, hc, h⟩ := Option.bind_eq_some.1 h
  cases c with
  | none => cases h; exact ⟨hc, rfl⟩
  | some i =>
    simp only [Option.bind_eq_bind, Option.bind_eq_some, Option.some.injEq, Prod.mk.injEq] at h
    obtain ⟨action, ha, action', ha', rfl, rfl⟩ := h
    exact ⟨hc, action, action', ha, ha', rfl⟩

/-- `MatchRule::ExplicitChooseOrDie(packet, i)`: `CHECK(i < actions_.size())`,
    then action `i` counts the packet and is returned, with the rule that
    holds it updated. -/
def MatchRule.explicitChooseOrDie (r : MatchRule) (packet : Packet) (i : Nat) (sampled : Bool) :
    Option (MatchRuleAction × MatchRule) := do
  let action ← r.actions_.get? i
  let action' ← action.updateStats packet sampled
  some (action', { r with actions_ := r.actions_.set i action' })

end Hash

/-! ### Reading the statistics -/

section Estimate

variable (estimateCount : FlowCounter → UInt64)

/-- `MatchRuleAction::Stats(include_flow_count)`: the action's stats, with
    the flow count replaced by the flow counter's estimate when one is asked
    for and the action has a counter.  `FlowCounter::EstimateCount` is
    declared in `match.h`, not in `src/`: the estimate is a parameter. -/
def MatchRuleAction.stats (a : MatchRuleAction) (includeFlowCount : Bool) : ActionStats :=
  match includeFlowCount, a.flowCounter_ with
  | true, some counter => { a.stats_ with flowCount := estimateCount counter }
  | _, _ => a.stats_

/-- `MatchRule::Stats(include_flow_count)`: the stats of each action, in
    order. -/
def MatchRule.stats (r : MatchRule) (includeFlowCount : Bool) : List ActionStats :=
  r.actions_.map (·.stats estimateCount includeFlowCount)

end Estimate

/-- `MatchRuleAction::FractionOfTraffic()`: the action's weight over the sum
    of the weights of its rule's actions, in a field `K` standing for
    `double`.  `parent_rule_` is the rule given; the `CHECK` that it is set
    is that a rule is given. -/
def MatchRuleAction.fractionOfTraffic {K : Type} [Field K] (a : MatchRuleAction) (parentRule : MatchRule) : K :=
  (a.weight_.toNat : K) / (parentRule.actions_.map fun b => (b.weight_.toNat : K)).sum

end NcodeCommon.Htsim
