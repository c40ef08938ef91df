import NcodeCommon.Htsim.Device

/-!
# Ingress accounting of a device

Every packet `Device::HandlePacketFromPort` accepts is counted in
`packets_seen`, and then in exactly one of `packets_for_localhost` (local
delivery), `packets_failed_to_match` (a miss, or a rule whose
`ChooseOrNull` returns `nullptr`), or by the action `MatchOrNull` chose,
whose `UpdateStats` counts it, just before `HandlePacketWithAction` sends it
out of one port.  The same holds of bytes.  Over a run of calls that does
not abort, the increases of the device's counters and of the counters of the
matcher's actions therefore agree (`run_accounting`), as long as no SSCP
message replaces or deletes an installed rule: `AddRule` then drops the
counts of the rule it replaces, while a new rule brings its own.

All counters are `uint64_t`, and so are the increases: the equations hold
modulo `2^64`.
-/

namespace NcodeCommon.Htsim

/-! ### Counting over lists and maps -/

theorem sum_map_set {α M : Type} [AddCommMonoid M] (f : α → M) {l : List α} {i : Nat} {a : α}
    (h : l.get? i = some a) (a' : α) : ((l.set i a').map f).sum + f a = (l.map f).sum + f a' := by
  induction l generalizing i with
  | nil => cases h
  | cons b l ih =>
    cases i with
    | zero =>
      cases h
      simp only [List.set_cons_zero, List.map_cons, List.sum_cons]
      abel
    | succ i =>
      simp only [List.set_cons_succ, List.map_cons, List.sum_cons, add_assoc, ih h]

section Entries

variable {α γ M : Type} [DecidableEq α] [AddCommMonoid M] (g : γ → M)

/-- Writing a new value under a key of a map replaces the old value in a sum
    over its entries. -/
theorem sum_entries_insert {s : AList (fun _ : α => γ)} {k : α} {v : γ} (h : s.lookup k = some v) (v' : γ) :
    ((s.insert k v').entries.map fun e => g e.2).sum + g v = (s.entries.map fun e => g e.2).sum + g v' := by
  have hk : k ∈ s.entries.keys := AList.mem_keys.1 (AList.lookup_isSome.1 (by simp [h]))
  obtain ⟨b, l₁, l₂, -, hs, herase⟩ := List.exists_of_kerase hk
  have hb : b = v :=
    s.nodupKeys.eq_of_mk_mem (hs ▸ List.mem_append_right _ (List.mem_cons_self _ _)) (AList.mem_lookup_iff.1 h)
  rw [AList.insert_entries, herase, hs, hb]
  simp only [List.map_cons, List.map_append, List.sum_cons, List.sum_append]
  abel

/-- Writing under a new key adds the value to a sum over the entries. -/
theorem sum_entries_insert_of_not_mem {s : AList (fun _ : α => γ)} {k : α} (h : k ∉ s) (v : γ) :
    ((s.insert k v).entries.map fun e => g e.2).sum = g v + (s.entries.map fun e => g e.2).sum := by
  rw [AList.insert_entries_of_neg h, List.map_cons, List.sum_cons]

theorem entries_erase_of_not_mem {s : AList (fun _ : α => γ)} {k : α} (h : k ∉ s) :
    (s.erase k).entries = s.entries :=
  List.kerase_of_not_mem_keys (AList.mem_keys.not.1 h)

end Entries

/-! ### The counters of the matcher's actions -/

/-- The packets the actions of a rule have counted. -/
def MatchRule.pktsMatched (r : MatchRule) : UInt64 :=
  (r.actions_.map (·.stats_.totalPktsMatched)).sum

/-- The bytes the actions of a rule have counted. -/
def MatchRule.bytesMatched (r : MatchRule) : UInt64 :=
  (r.actions_.map (·.stats_.totalBytesMatched)).sum

/-- The packets the actions of every rule of the matcher have counted. -/
def Matcher.pktsMatched (m : Matcher) : UInt64 :=
  (m.allRules_.entries.map fun e => e.2.2.pktsMatched).sum

/-- The bytes the actions of every rule of the matcher have counted. -/
def Matcher.bytesMatched (m : Matcher) : UInt64 :=
  (m.allRules_.entries.map fun e => e.2.2.bytesMatched).sum

/-- `Matcher::PopulateSSCPStats(include_flow_counts, stats_reply)`: the
    stats of every installed rule under its key, as `SSCPStatsReply::AddStats`
    collects them, in the order `all_rules_` iterates: a `std::map` iterates
    in increasing key order, under `MatchRuleKey`'s `operator<`. -/
def Matcher.populateSSCPStats (estimateCount : FlowCounter → UInt64)
    (fiveTupleLt : FiveTuple → FiveTuple → Bool) (m : Matcher) (includeFlowCounts : Bool) :
    List (MatchRuleKey × List ActionStats) :=
  (m.allRules_.entries.mergeSort fun a b => !MatchRuleKey.lt fiveTupleLt b.1 a.1).map fun e =>
    (e.1, e.2.2.stats estimateCount includeFlowCounts)

/-- The stats of action `i` of the rule the matcher holds under `key`. -/
def Matcher.actionStats (m : Matcher) (key : MatchRuleKey) (i : Nat) : Option ActionStats :=
  (m.allRules_.lookup key).bind fun e => (e.2.actions_.get? i).map (·.stats_)

section Wild

variable (wild : Wildcards)

/-- Installing a rule under a new key adds its counts to the matcher's;
    deleting a key the matcher does not hold changes nothing. -/
theorem Matcher.counters_addRule {m m' : Matcher} {rule : MatchRule} (h : m.addRule wild rule = some m')
    (hnew : m.allRules_.lookup rule.key_ = none) :
    m'.pktsMatched = m.pktsMatched + rule.pktsMatched ∧ m'.bytesMatched = m.bytesMatched + rule.bytesMatched := by
  unfold Matcher.addRule at h
  split_ifs at h
  cases h
  have hk : rule.key_ ∉ m.allRules_ := AList.lookup_eq_none.1 hnew
  simp only [Matcher.pktsMatched, Matcher.bytesMatched]
  cases hempty : rule.actions_.isEmpty
  · simp only [if_false, Bool.false_eq_true]
    rw [sum_entries_insert_of_not_mem (fun v : Nat × MatchRule => v.2.pktsMatched) hk,
      sum_entries_insert_of_not_mem (fun v : Nat × MatchRule => v.2.bytesMatched) hk]
    exact ⟨add_comm _ _, add_comm _ _⟩
  · have : rule.actions_ = [] := List.isEmpty_iff.1 hempty
    simp [entries_erase_of_not_mem hk, MatchRule.pktsMatched, MatchRule.bytesMatched, this]

end Wild

/-! ### What a list of events sends out of ports -/

/-- The number of packets a list of events sends out of ports, as a
    `uint64_t` counter counts them. -/
def sentCount (evs : List DeviceEvent) : UInt64 :=
  ((sentPackets evs).map fun _ => 1).sum

/-- The bytes a list of events sends out of ports. -/
def sentBytes (evs : List DeviceEvent) : UInt64 :=
  ((sentPackets evs).map (·.packet.sizeBytes.toUInt64)).sum

@[simp] theorem sentCount_append (evs evs' : List DeviceEvent) :
    sentCount (evs ++ evs') = sentCount evs + sentCount evs' := by
  simp only [sentCount, sentPackets_append, List.map_append, List.sum_append]

@[simp] theorem sentBytes_append (evs evs' : List DeviceEvent) :
    sentBytes (evs ++ evs') = sentBytes evs + sentBytes evs' := by
  simp only [sentBytes, sentPackets_append, List.map_append, List.sum_append]

section Headers

variable (hdr : Headers)

/-- Rewriting action `i` of the rule under `key` replaces the action in a sum
    over all actions of the matcher. -/
theorem sum_insert_set (f : MatchRuleAction → UInt64) {m : Matcher} {key : MatchRuleKey} {ptr i : Nat}
    {rule : MatchRule} {a : MatchRuleAction} (hk : m.allRules_.lookup key = some (ptr, rule))
    (ha : rule.actions_.get? i = some a) (action : MatchRuleAction) :
    ((m.allRules_.insert key (ptr, { rule with actions_ := rule.actions_.set i action })).entries.map
      fun e => (e.2.2.actions_.map f).sum).sum + f a =
    (m.allRules_.entries.map fun e => (e.2.2.actions_.map f).sum).sum + f action := by
  have hm := sum_entries_insert (fun v : Nat × MatchRule => (v.2.actions_.map f).sum) hk
    (ptr, { rule with actions_ := rule.actions_.set i action })
  have hr := sum_map_set f ha action
  dsimp only at hm
  apply add_right_cancel (b := (rule.actions_.map f).sum)
  rw [add_right_comm, hm, add_assoc, hr]
  abel

/-- On a hit, the lookup counts the packet once in the matcher's totals, in
    the stats of the chosen action and of no other. -/
theorem Matcher.counters_matchOrNullWithStats {m m' : Matcher} {pkt : Packet} {inputPort : DevicePortNumber}
    {sampled : Bool} {ptrI : Nat × Nat} {action : MatchRuleAction}
    (h : m.matchOrNullWithStats hdr pkt inputPort sampled = some (some (ptrI, action), m')) :
    m'.pktsMatched = m.pktsMatched + 1 ∧ m'.bytesMatched = m.bytesMatched + pkt.sizeBytes.toUInt64 ∧
    ∃ key i s, m.actionStats key i = some s ∧
      m'.actionStats key i = some { s with
        totalPktsMatched := s.totalPktsMatched + 1
        totalBytesMatched := s.totalBytesMatched + pkt.sizeBytes.toUInt64 } ∧
      ∀ key' i', (key', i') ≠ (key, i) → m'.actionStats key' i' = m.actionStats key' i' := by
  obtain ⟨ptr, i⟩ := ptrI
  obtain ⟨key, rule, a, hk, ha, hupd, rfl⟩ := Matcher.matchOrNullWithStats_eq_some hdr h
  obtain ⟨hs, -⟩ := MatchRuleAction.updateStats_eq_some hupd
  have ha' : rule.actions_[i]? = some a := by rwa [List.get?_eq_getElem?] at ha
  have hi : i < rule.actions_.length := (List.getElem?_eq_some_iff.1 ha').1
  have hp := sum_insert_set (·.stats_.totalPktsMatched) hk ha action
  have hb := sum_insert_set (·.stats_.totalBytesMatched) hk ha action
  simp only [hs] at hp hb
  simp only [Matcher.pktsMatched, Matcher.bytesMatched, MatchRule.pktsMatched, MatchRule.bytesMatched]
  refine ⟨add_right_cancel (hp.trans (by abel)), add_right_cancel (hb.trans (by abel)), key, i, a.stats_,
    ?_, ?_, fun key' i' hne => ?_⟩
  · simp [Matcher.actionStats, hk, ha']
  · simp [Matcher.actionStats, List.getElem?_set_self hi, hs]
  · by_cases hkey : key' = key
    · subst hkey
      have hi : i ≠ i' := fun hii => hne (by rw [hii])
      simp [Matcher.actionStats, hk, List.getElem?_set_ne hi]
    · simp [Matcher.actionStats, AList.lookup_insert_ne hkey]

/-- The rule an arriving packet installs in a device with this address: the
    rule of an SSCP add-or-update message addressed to the device. -/
def DevicePacket.installs (pkt : DevicePacket) (ipAddress : UInt32) : Option MatchRule :=
  if pkt.packet.fiveTuple.ipDst = ipAddress ∧ pkt.packet.sizeBytes = 0 ∧
      pkt.packet.fiveTuple.ipProto.toUInt8 = hdr.kSSCPAddOrUpdateType then
    match pkt.message with
    | some (.addOrUpdate rule _) => some rule
    | _ => none
  else none

/-- No call moves the device's address. -/
theorem Device.handlePacketFromPort_ipAddress {d d' : Device} {inputPort : Port} {pkt : DevicePacket}
    {sampled : Bool} {evs : List DeviceEvent}
    (h : d.handlePacketFromPort hdr inputPort pkt sampled = some (d', evs)) : d'.ipAddress_ = d.ipAddress_ := by
  rcases Device.handlePacketFromPort_eq_some hdr h with ⟨-, hh⟩ | ⟨-, -, hd', -⟩ | ⟨-, -, -, -, hd', -⟩
  · exact (Device.handlePacket_eq_some hdr hh).2.1
  all_goals rw [hd']

/-- A packet for another address installs nothing. -/
theorem DevicePacket.installs_of_ne {pkt : DevicePacket} {ipAddress : UInt32}
    (h : pkt.packet.fiveTuple.ipDst ≠ ipAddress) : pkt.installs hdr ipAddress = none :=
  if_neg fun h' => h h'.1

/-- What one call does to the device's own counters: the packet is counted
    as seen, and the increase of `packets_seen` is that of
    `packets_for_localhost` and `packets_failed_to_match` and the packets
    sent; the same of bytes. -/
theorem Device.handlePacketFromPort_stats {d d' : Device} {inputPort : Port} {pkt : DevicePacket}
    {sampled : Bool} {evs : List DeviceEvent}
    (h : d.handlePacketFromPort hdr inputPort pkt sampled = some (d', evs)) :
    d'.stats_.packetsSeen = d.stats_.packetsSeen + 1 ∧
    d'.stats_.bytesSeen = d.stats_.bytesSeen + pkt.packet.sizeBytes.toUInt64 ∧
    d'.stats_.packetsSeen - d.stats_.packetsSeen =
      (d'.stats_.packetsForLocalhost - d.stats_.packetsForLocalhost) +
      (d'.stats_.packetsFailedToMatch - d.stats_.packetsFailedToMatch) + sentCount evs ∧
    d'.stats_.bytesSeen - d.stats_.bytesSeen =
      (d'.stats_.bytesForLocalhost - d.stats_.bytesForLocalhost) +
      (d'.stats_.bytesFailedToMatch - d.stats_.bytesFailedToMatch) + sentBytes evs := by
  rcases Device.handlePacketFromPort_eq_some hdr h with ⟨-, hh⟩ | ⟨-, -, hd', rfl⟩ | ⟨-, _, _, -, hd', hevs⟩
  · -- local delivery
    obtain ⟨hsent, -, ⟨r, hstats⟩, -⟩ := Device.handlePacket_eq_some hdr hh
    have hcount : sentCount evs = 0 := by simp [sentCount, hsent]
    have hbytes : sentBytes evs = 0 := by simp [sentBytes, hsent]
    simp only [hstats, hcount, hbytes]
    exact ⟨trivial, trivial, by abel, by abel⟩
  · -- a miss, counted and dropped
    simp only [congrArg Device.stats_ hd', sentCount, sentBytes, sentPackets]
    exact ⟨trivial, trivial, by abel, by abel⟩
  · -- a hit, sent out of one port
    obtain ⟨pkt', hsent, hsize⟩ := Device.sentPackets_handlePacketWithAction hdr hevs
    simp [congrArg Device.stats_ hd', sentCount, sentBytes, hsent, hsize]

/-- One call sends at most one packet: the packet it was given, with its TTL
    lowered by one and its size kept. -/
theorem Device.sentPackets_handlePacketFromPort {d d' : Device} {inputPort : Port} {pkt : DevicePacket}
    {sampled : Bool} {evs : List DeviceEvent}
    (h : d.handlePacketFromPort hdr inputPort pkt sampled = some (d', evs)) :
    sentPackets evs = [] ∨ ∃ p, sentPackets evs = [p] ∧ p.ttl + 1 = pkt.ttl ∧
      p.packet.sizeBytes = pkt.packet.sizeBytes := by
  rcases Device.handlePacketFromPort_eq_some hdr h with ⟨-, hh⟩ | ⟨-, -, -, rfl⟩ | ⟨-, _, _, -, -, hevs⟩
  · exact .inl (Device.handlePacket_eq_some hdr hh).1
  · exact .inl rfl
  · obtain ⟨p, hsent, hsize⟩ := Device.sentPackets_handlePacketWithAction hdr hevs
    exact .inr ⟨p, hsent, Device.ttl_handlePacketWithAction hdr hevs p (hsent ▸ List.mem_singleton_self p), hsize⟩

/-- What one call does to the counters: the increase of `packets_seen` is
    that of `packets_for_localhost` and `packets_failed_to_match` and the
    packets sent, and the packets sent are what the matcher's actions count,
    besides the counts a newly installed rule brings; the same of bytes. -/
theorem Device.handlePacketFromPort_counters {d d' : Device} {inputPort : Port} {pkt : DevicePacket}
    {sampled : Bool} {evs : List DeviceEvent}
    (h : d.handlePacketFromPort hdr inputPort pkt sampled = some (d', evs))
    (hkeep : ∀ rule, pkt.installs hdr d.ipAddress_ = some rule → d.matcher_.allRules_.lookup rule.key_ = none) :
    d'.stats_.packetsSeen - d.stats_.packetsSeen =
      (d'.stats_.packetsForLocalhost - d.stats_.packetsForLocalhost) +
      (d'.stats_.packetsFailedToMatch - d.stats_.packetsFailedToMatch) + sentCount evs ∧
    d'.stats_.bytesSeen - d.stats_.bytesSeen =
      (d'.stats_.bytesForLocalhost - d.stats_.bytesForLocalhost) +
      (d'.stats_.bytesFailedToMatch - d.stats_.bytesFailedToMatch) + sentBytes evs ∧
    d'.matcher_.pktsMatched = d.matcher_.pktsMatched + sentCount evs +
      ((pkt.installs hdr d.ipAddress_).map MatchRule.pktsMatched).getD 0 ∧
    d'.matcher_.bytesMatched = d.matcher_.bytesMatched + sentBytes evs +
      ((pkt.installs hdr d.ipAddress_).map MatchRule.bytesMatched).getD 0 := by
  obtain ⟨-, -, hp, hb⟩ := Device.handlePacketFromPort_stats hdr h
  refine ⟨hp, hb, ?_⟩
  rcases Device.handlePacketFromPort_eq_some hdr h with ⟨hlocal, hh⟩ | ⟨hlocal, hm, -, rfl⟩ |
    ⟨hlocal, ptrI, action, hm, -, hevs⟩
  · -- local delivery
    obtain ⟨hsent, -, -, hmatcher⟩ := Device.handlePacket_eq_some hdr hh
    have hcount : sentCount evs = 0 := by simp [sentCount, hsent]
    have hbytes : sentBytes evs = 0 := by simp [sentBytes, hsent]
    by_cases hc : pkt.packet.sizeBytes = 0 ∧ pkt.packet.fiveTuple.ipProto.toUInt8 = hdr.kSSCPAddOrUpdateType
    · rw [if_pos hc] at hmatcher
      obtain ⟨rule, txId, hmsg, hadd⟩ := hmatcher
      have hi : pkt.installs hdr d.ipAddress_ = some rule := by
        simp [DevicePacket.installs, hlocal, hc, hmsg]
      obtain ⟨hp, hb⟩ := Matcher.counters_addRule hdr.wild hadd (hkeep rule hi)
      simp only [hi, hcount, hbytes, Option.map_some', Option.getD_some, add_zero]
      exact ⟨hp, hb⟩
    · rw [if_neg hc] at hmatcher
      have hi : pkt.installs hdr d.ipAddress_ = none := by
        simp only [DevicePacket.installs, if_neg fun h : _ ∧ _ => hc h.2]
      simp [hi, hcount, hbytes, hmatcher]
  · -- a miss, counted and dropped
    have hmatcher : d'.matcher_ = d.matcher_ := Matcher.matchOrNullWithStats_eq_some hdr hm
    simp [DevicePacket.installs_of_ne hdr hlocal, hmatcher, sentCount, sentBytes, sentPackets]
  · -- a hit, counted by one action and sent out of one port
    obtain ⟨pkt', hsent, hsize⟩ := Device.sentPackets_handlePacketWithAction hdr hevs
    obtain ⟨hp, hb, -⟩ := Matcher.counters_matchOrNullWithStats hdr hm
    simp [DevicePacket.installs_of_ne hdr hlocal, sentCount, sentBytes, hsent, hsize, hp, hb]

/-- What one completed call sent and counted: a packet for the device is
    sent out of no port; any other packet is either sent out of no port with
    the stats of every action unchanged, or sent out of exactly one port at
    its size and counted by exactly one action, once. -/
def Device.CallAccounted (d d' : Device) (pkt : DevicePacket) (evs : List DeviceEvent) : Prop :=
  (pkt.packet.fiveTuple.ipDst = d.ipAddress_ → sentPackets evs = []) ∧
  (pkt.packet.fiveTuple.ipDst ≠ d.ipAddress_ →
    (sentPackets evs = [] ∧ ∀ key i, d'.matcher_.actionStats key i = d.matcher_.actionStats key i) ∨
    ((∃ pkt', sentPackets evs = [pkt'] ∧ pkt'.packet.sizeBytes = pkt.packet.sizeBytes) ∧
      ∃ key i s, d.matcher_.actionStats key i = some s ∧
        d'.matcher_.actionStats key i = some { s with
          totalPktsMatched := s.totalPktsMatched + 1
          totalBytesMatched := s.totalBytesMatched + pkt.packet.sizeBytes.toUInt64 } ∧
        ∀ key' i', (key', i') ≠ (key, i) → d'.matcher_.actionStats key' i' = d.matcher_.actionStats key' i'))

theorem Device.callAccounted_handlePacketFromPort {d d' : Device} {inputPort : Port} {pkt : DevicePacket}
    {sampled : Bool} {evs : List DeviceEvent}
    (h : d.handlePacketFromPort hdr inputPort pkt sampled = some (d', evs)) : d.CallAccounted d' pkt evs := by
  rcases Device.handlePacketFromPort_eq_some hdr h with ⟨hlocal, hh⟩ | ⟨hlocal, hm, -, rfl⟩ |
    ⟨hlocal, ptrI, action, hm, -, hevs⟩
  · exact ⟨fun _ => (Device.handlePacket_eq_some hdr hh).1, fun h => absurd hlocal h⟩
  · have hmatcher : d'.matcher_ = d.matcher_ := Matcher.matchOrNullWithStats_eq_some hdr hm
    exact ⟨fun h => absurd h hlocal, fun _ => .inl ⟨rfl, fun key i => by rw [hmatcher]⟩⟩
  · exact ⟨fun h => absurd h hlocal, fun _ => .inr ⟨Device.sentPackets_handlePacketWithAction hdr hevs,
      (Matcher.counters_matchOrNullWithStats hdr hm).2.2⟩⟩

/-! ### Runs -/

/-- One call of `HandlePacketFromPort`: the input port, the packet, and the
    draw of the sampler of the action the lookup chooses. -/
structure Arrival where
  inputPort : Port
  pkt : DevicePacket
  sampled : Bool

/-- A run of `HandlePacketFromPort` calls: the device after the last call and
    what the calls did outside it, in order; `none` when one aborts. -/
def Device.run (d : Device) : List Arrival → Option (Device × List DeviceEvent)
  | [] => some (d, [])
  | a :: rest => do
    let (d₁, evs) ← d.handlePacketFromPort hdr a.inputPort a.pkt a.sampled
    let (d₂, evs') ← d₁.run rest
    some (d₂, evs ++ evs')

/-- No call of the run replaces or deletes a rule the matcher holds: every
    rule an SSCP message installs goes under a key the matcher does not hold
    when it arrives. -/
def Device.NoRuleRemoved : Device → List Arrival → Prop
  | _, [] => True
  | d, a :: rest =>
    (∀ rule, a.pkt.installs hdr d.ipAddress_ = some rule → d.matcher_.allRules_.lookup rule.key_ = none) ∧
    ∀ d₁ evs, d.handlePacketFromPort hdr a.inputPort a.pkt a.sampled = some (d₁, evs) → d₁.NoRuleRemoved rest

/-- The rules the arrivals install in a device with this address, in order. -/
def installedRules (ipAddress : UInt32) (arrivals : List Arrival) : List MatchRule :=
  arrivals.filterMap fun a => a.pkt.installs hdr ipAddress

theorem sum_installedRules_cons (f : MatchRule → UInt64) (ipAddress : UInt32) (a : Arrival)
    (rest : List Arrival) :
    ((installedRules hdr ipAddress (a :: rest)).map f).sum =
      ((a.pkt.installs hdr ipAddress).map f).getD 0 + ((installedRules hdr ipAddress rest).map f).sum := by
  cases hi : a.pkt.installs hdr ipAddress <;> simp [installedRules, List.filterMap_cons, hi]

/-- A run in which no message installs a rule removes none. -/
theorem Device.noRuleRemoved_of_installedRules_nil {d : Device} {arrivals : List Arrival}
    (h : installedRules hdr d.ipAddress_ arrivals = []) : d.NoRuleRemoved hdr arrivals := by
  induction arrivals generalizing d with
  | nil => trivial
  | cons a rest ih =>
    simp only [installedRules, List.filterMap_cons] at h
    split at h
    · next hnone =>
      constructor
      · intro rule hr
        rw [hnone] at hr
        cases hr
      · intro d₁ evs h₁
        apply ih
        rw [Device.handlePacketFromPort_ipAddress hdr h₁]
        exact h
    · cases h

/-- Increases over two consecutive stretches add up. -/
theorem sub_chain {G : Type} [AddCommGroup G] {x₀ x₁ x₂ a₀ a₁ a₂ b₀ b₁ b₂ c c' : G}
    (h₁ : x₁ - x₀ = (a₁ - a₀) + (b₁ - b₀) + c) (h₂ : x₂ - x₁ = (a₂ - a₁) + (b₂ - b₁) + c') :
    x₂ - x₀ = (a₂ - a₀) + (b₂ - b₀) + (c + c') := by
  rw [← sub_add_sub_cancel x₂ x₁ x₀, h₁, h₂]
  abel

/-- The counters over a run, by induction from `handlePacketFromPort_counters`. -/
theorem Device.run_counters {d d' : Device} {arrivals : List Arrival} {events : List DeviceEvent}
    (hrun : d.run hdr arrivals = some (d', events)) (hkeep : d.NoRuleRemoved hdr arrivals) :
    d'.ipAddress_ = d.ipAddress_ ∧
    d'.stats_.packetsSeen - d.stats_.packetsSeen =
      (d'.stats_.packetsForLocalhost - d.stats_.packetsForLocalhost) +
      (d'.stats_.packetsFailedToMatch - d.stats_.packetsFailedToMatch) + sentCount events ∧
    d'.stats_.bytesSeen - d.stats_.bytesSeen =
      (d'.stats_.bytesForLocalhost - d.stats_.bytesForLocalhost) +
      (d'.stats_.bytesFailedToMatch - d.stats_.bytesFailedToMatch) + sentBytes events ∧
    d'.matcher_.pktsMatched = d.matcher_.pktsMatched + sentCount events +
      ((installedRules hdr d.ipAddress_ arrivals).map MatchRule.pktsMatched).sum ∧
    d'.matcher_.bytesMatched = d.matcher_.bytesMatched + sentBytes events +
      ((installedRules hdr d.ipAddress_ arrivals).map MatchRule.bytesMatched).sum := by
  induction arrivals generalizing d events with
  | nil =>
    cases hrun
    simp [sentCount, sentBytes, sentPackets, installedRules]
  | cons a rest ih =>
    obtain ⟨⟨d₁, evs₁⟩, h₁, hrest⟩ := Option.bind_eq_some.1 hrun
    obtain ⟨⟨d₂, evs₂⟩, h₂, heq⟩ := Option.bind_eq_some.1 hrest
    cases heq
    have hip₁ := Device.handlePacketFromPort_ipAddress hdr h₁
    obtain ⟨hp₁, hb₁, hm₁, hmb₁⟩ := Device.handlePacketFromPort_counters hdr h₁ hkeep.1
    obtain ⟨hip₂, hp₂, hb₂, hm₂, hmb₂⟩ := ih h₂ (hkeep.2 d₁ evs₁ h₁)
    rw [hip₁] at hm₂ hmb₂
    refine ⟨hip₂.trans hip₁, ?_, ?_, ?_, ?_⟩
    · rw [sentCount_append]
      exact sub_chain hp₁ hp₂
    · rw [sentBytes_append]
      exact sub_chain hb₁ hb₂
    · rw [hm₂, hm₁, sum_installedRules_cons, sentCount_append]
      abel
    · rw [hmb₂, hmb₁, sum_installedRules_cons, sentBytes_append]
      abel

/-- Ingress accounting over every run of `HandlePacketFromPort` that does not
    abort and in which no installed rule is replaced or deleted: the increase
    of `packets_seen` is that of `packets_for_localhost` and
    `packets_failed_to_match` and the packets handed to ports; the matcher's
    actions count exactly those packets, besides what the rules the run
    installs bring with them; the same of bytes; and every call sends out of
    at most one port what exactly one action counts (`CallAccounted`).  All
    of it modulo `2^64`. -/
theorem run_accounting {d d' : Device} {arrivals : List Arrival} {events : List DeviceEvent}
    (hrun : d.run hdr arrivals = some (d', events)) (hkeep : d.NoRuleRemoved hdr arrivals) :
    d'.stats_.packetsSeen - d.stats_.packetsSeen =
      (d'.stats_.packetsForLocalhost - d.stats_.packetsForLocalhost) +
      (d'.stats_.packetsFailedToMatch - d.stats_.packetsFailedToMatch) + sentCount events ∧
    d'.stats_.bytesSeen - d.stats_.bytesSeen =
      (d'.stats_.bytesForLocalhost - d.stats_.bytesForLocalhost) +
      (d'.stats_.bytesFailedToMatch - d.stats_.bytesFailedToMatch) + sentBytes events ∧
    d'.matcher_.pktsMatched - d.matcher_.pktsMatched =
      sentCount events + ((installedRules hdr d.ipAddress_ arrivals).map MatchRule.pktsMatched).sum ∧
    d'.matcher_.bytesMatched - d.matcher_.bytesMatched =
      sentBytes events + ((installedRules hdr d.ipAddress_ arrivals).map MatchRule.bytesMatched).sum ∧
    ∀ (e e' : Device) (a : Arrival) evs,
      e.handlePacketFromPort hdr a.inputPort a.pkt a.sampled = some (e', evs) → e.CallAccounted e' a.pkt evs := by
  obtain ⟨-, hp, hb, hm, hmb⟩ := Device.run_counters hdr hrun hkeep
  refine ⟨hp, hb, by rw [hm]; abel, by rw [hmb]; abel, fun e e' a evs h => ?_⟩
  exact Device.callAccounted_handlePacketFromPort hdr h

end Headers

/-! ### Runs of one device -/

/-- A device at address `9` whose port `2` is connected, and nothing else. -/
def exampleDevice : Device :=
  { Device.new "d" 9 with portNumberToPort_ := (∅ : AList fun _ : DevicePortNumber => Port).insert ⟨2⟩ ⟨⟨2⟩, true, false⟩ }

/-- An SSCP add-or-update message for `exampleDevice` that carries `rule`,
    arriving on port `1`. -/
def sscpInstall (rule : MatchRule) : Arrival :=
  ⟨Port.new ⟨1⟩, ⟨⟨⟨1, 9, 1, 0, 0⟩, 0, ⟨0⟩⟩, 64, false, some (.addOrUpdate rule none)⟩, false⟩

/-- A packet of 100 bytes of `exampleFiveTuple` with tag `1`, arriving on
    port `1`. -/
def forwardedArrival : Arrival :=
  ⟨⟨⟨1⟩, true, false⟩, ⟨⟨exampleFiveTuple, 100, ⟨1⟩⟩, 64, false, none⟩, false⟩

/-- `forwardRule` installed by a message, then a packet it forwards. -/
theorem run_accounting_install_then_forward :
    ∃ d' events, exampleDevice.run exampleHeaders [sscpInstall (forwardRule [exampleFiveTuple]), forwardedArrival] =
      some (d', events) ∧
    exampleDevice.NoRuleRemoved exampleHeaders [sscpInstall (forwardRule [exampleFiveTuple]), forwardedArrival] ∧
    d'.stats_.packetsSeen - exampleDevice.stats_.packetsSeen =
      (d'.stats_.packetsForLocalhost - exampleDevice.stats_.packetsForLocalhost) +
      (d'.stats_.packetsFailedToMatch - exampleDevice.stats_.packetsFailedToMatch) + sentCount events ∧
    d'.stats_.bytesSeen - exampleDevice.stats_.bytesSeen =
      (d'.stats_.bytesForLocalhost - exampleDevice.stats_.bytesForLocalhost) +
      (d'.stats_.bytesFailedToMatch - exampleDevice.stats_.bytesFailedToMatch) + sentBytes events ∧
    d'.matcher_.pktsMatched - exampleDevice.matcher_.pktsMatched =
      sentCount events + ((installedRules exampleHeaders exampleDevice.ipAddress_
        [sscpInstall (forwardRule [exampleFiveTuple]), forwardedArrival]).map MatchRule.pktsMatched).sum ∧
    d'.matcher_.bytesMatched - exampleDevice.matcher_.bytesMatched =
      sentBytes events + ((installedRules exampleHeaders exampleDevice.ipAddress_
        [sscpInstall (forwardRule [exampleFiveTuple]), forwardedArrival]).map MatchRule.bytesMatched).sum ∧
    ∀ (e e' : Device) (a : Arrival) evs,
      e.handlePacketFromPort exampleHeaders a.inputPort a.pkt a.sampled = some (e', evs) →
        e.CallAccounted e' a.pkt evs := by
  obtain ⟨d', events, h⟩ : ∃ d' events, exampleDevice.run exampleHeaders
      [sscpInstall (forwardRule [exampleFiveTuple]), forwardedArrival] = some (d', events) := ⟨_, _, rfl⟩
  have hkeep : exampleDevice.NoRuleRemoved exampleHeaders
      [sscpInstall (forwardRule [exampleFiveTuple]), forwardedArrival] :=
    ⟨fun _ _ => rfl, fun _ _ h₁ => Device.noRuleRemoved_of_installedRules_nil exampleHeaders
      (by rw [Device.handlePacketFromPort_ipAddress exampleHeaders h₁]; rfl)⟩
  exact ⟨d', events, h, hkeep, run_accounting exampleHeaders h hkeep⟩

/-- A rule like `forwardRule [exampleFiveTuple]` whose action has already
    counted one packet of 100 bytes. -/
def countedRule : MatchRule :=
  { forwardRule [exampleFiveTuple] with
    actions_ := [{ MatchRuleAction.new ⟨2⟩ ⟨0⟩ 1 with stats_ := ⟨⟨2⟩, ⟨0⟩, 1, 100, 0⟩ }] }

/-- A message installs `countedRule` under a key the matcher does not hold:
    no packet is sent, yet the total of the matcher's actions grows by one
    packet. -/
theorem run_install_counted_rule :
    exampleDevice.NoRuleRemoved exampleHeaders [sscpInstall countedRule] ∧
    (exampleDevice.run exampleHeaders [sscpInstall countedRule]).map
      (fun r => (sentCount r.2, r.1.matcher_.pktsMatched - exampleDevice.matcher_.pktsMatched)) = some (0, 1) :=
  ⟨⟨fun _ _ => rfl, fun _ _ _ => trivial⟩, by decide⟩

end NcodeCommon.Htsim
