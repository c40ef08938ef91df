import NcodeCommon.Htsim.Matcher
import NcodeCommon.Htsim.ActionStats

/-!
# The device

`src/htsim/network.cc`: `Device`, the forwarding element of the simulated
network.  A packet arriving on a port (`HandlePacketFromPort`) is counted.  If
it is addressed to the device it is delivered locally (`HandlePacket`): an
SSCP control message installs a rule or asks for statistics, and a data
packet goes to the endpoint of its flow, created on demand.  Otherwise the
matcher looks it up and updates the statistics of the action it chooses; a
miss is counted and dropped, and a hit is rewritten and sent out of the
action's port (`HandlePacketWithAction`).  Generators (`AddTCPGenerator`,
`AddUDPGenerator`) are endpoints that take the first free source port.

A call maps the device to the device and the list of what it does outside
it (`DeviceEvent`): packets handed to ports, observers and endpoints, SSCP
replies, and registrations with the retransmit timer.  What endpoints,
observers and handlers do with what they receive is in headers that are not
in `src/`.  A pointer to an endpoint is the identity the device hands out when
it creates one.  `LOG(FATAL)`, a failed `CHECK` and undefined behaviour (a
null handler, a static cast to a message class the packet is not of) are
`none`.

This module has the model and what one call does; `DeviceAccounting.lean`
and `DeviceConnections.lean` lift it to runs.
-/

namespace NcodeCommon.Htsim

/-! ### What the device reads from other headers -/

/-- What the device code reads from headers that are not in `src/`: the
    wildcards and `FiveTuple::hash()` of the matcher, `kNullPacketTag`, the
    SSCP message types, and the IP protocol numbers of TCP and UDP. -/
structure Headers where
  wild : Wildcards
  fiveTupleHash : FiveTuple → Nat
  kNullPacketTag : PacketTag
  kSSCPAddOrUpdateType : UInt8
  kSSCPStatsRequestType : UInt8
  kProtoTCP : UInt32
  kProtoUDP : UInt32

/-- Modelled from the spec: `FiveTuple::Reverse()`, the five-tuple of the
    other direction of the flow (`net.h` is not in `src/`). -/
def FiveTuple.reverse (t : FiveTuple) : FiveTuple :=
  ⟨t.ipDst, t.ipSrc, t.ipProto, t.dstPort, t.srcPort⟩

/-- `Device::kLoopbackPortNum`, `DevicePortNumber::Max()`. -/
def kLoopbackPortNum : DevicePortNumber := ⟨0xFFFFFFFF⟩

/-- An SSCP control message, whose classes are declared in headers that are
    not in `src/`: `SSCPAddOrUpdate` carries a rule and a transaction id
    (`none` for `kNoTxId`), `SSCPStatsRequest` a flag. -/
inductive SSCPMessage where
  | addOrUpdate (rule : MatchRule) (txId : Option Nat)
  | statsRequest (includeFlowCounts : Bool)
deriving DecidableEq

/-- A `PacketPtr` as the device sees it: the fields the matcher reads, the
    TTL and preferential-drop flag `HandlePacketWithAction` writes, and the
    SSCP message class of the object, if it is one. -/
structure DevicePacket where
  packet : Packet
  ttl : Nat
  preferentialDrop : Bool
  message : Option SSCPMessage
deriving DecidableEq

/-- Modelled from the spec: `Packet::DecrementTTL()` lowers the TTL by one
    and fails when it reaches zero. -/
def DevicePacket.decrementTTL (p : DevicePacket) : Option DevicePacket :=
  if p.ttl ≤ 1 then none else some { p with ttl := p.ttl - 1 }

/-! ### The device -/

/-- `Port`: its number, whether an out handler is connected
    (`out_handler_ != nullptr`), and whether it is internal. -/
structure Port where
  number_ : DevicePortNumber
  outHandler_ : Bool
  internal_ : Bool
deriving DecidableEq

/-- `Port(number, device)`: not connected, not internal. -/
def Port.new (number : DevicePortNumber) : Port := ⟨number, false, false⟩

/-- The endpoints a device creates, declared in `tcp.h` and `udp.h`. -/
inductive ConnectionKind where
  | udpSink
  | tcpSink
  | udpSource
  | tcpSource
deriving DecidableEq

/-- A `Connection` the device owns: its kind, the five-tuple it was made
    with, and the identity of its pointer. -/
structure Connection where
  kind : ConnectionKind
  fiveTuple : FiveTuple
  id : Nat
deriving DecidableEq

/-- `DeviceStats`, declared in `network.h`: the counters of a device, as
    `uint64_t`. -/
structure DeviceStats where
  packetsSeen : UInt64
  bytesSeen : UInt64
  packetsForLocalhost : UInt64
  bytesForLocalhost : UInt64
  packetsFailedToMatch : UInt64
  bytesFailedToMatch : UInt64
  routeUpdatesSeen : UInt64
deriving DecidableEq

/-- `Device`: its id and address, counters, matcher, ports by number, the
    endpoints by five-tuple, the identity the next endpoint gets, and
    whether the network, the replies handler and the two observers are set. -/
structure Device where
  id_ : String
  ipAddress_ : UInt32
  stats_ : DeviceStats
  matcher_ : Matcher
  dieOnFailToMatch_ : Bool
  portNumberToPort_ : AList (fun _ : DevicePortNumber => Port)
  connections_ : AList (fun _ : FiveTuple => Connection)
  nextConnection_ : Nat
  network_ : Bool
  repliesHandler_ : Bool
  internalExternalObserver_ : Bool
  externalInternalObserver_ : Bool

/-- `Device(id, ip_address, event_queue)`: a matcher named after the device,
    zero counters, and nothing attached. -/
def Device.new (id : String) (ipAddress : UInt32) : Device where
  id_ := id
  ipAddress_ := ipAddress
  stats_ := ⟨0, 0, 0, 0, 0, 0, 0⟩
  matcher_ := Matcher.new ("matcher_for_" ++ id)
  dieOnFailToMatch_ := false
  portNumberToPort_ := ∅
  connections_ := ∅
  nextConnection_ := 0
  network_ := false
  repliesHandler_ := false
  internalExternalObserver_ := false
  externalInternalObserver_ := false

/-- What a call does outside the device, in order. -/
inductive DeviceEvent where
  /-- `Port::SendPacketOut` on the port with this number. -/
  | sendPacketOut (port : DevicePortNumber) (pkt : DevicePacket)
  /-- `ObservePacket` of the internal-to-external observer (`true`) or the
      external-to-internal one. -/
  | observePacket (internalToExternal : Bool) (pkt : DevicePacket)
  /-- `Connection::HandlePacket` of the endpoint with this identity. -/
  | deliver (connection : Nat) (pkt : DevicePacket)
  /-- An `SSCPAck` of a transaction to the replies handler. -/
  | ack (dst : UInt32) (txId : Nat)
  /-- An `SSCPStatsReply` to the replies handler. -/
  | statsReply (dst : UInt32) (includeFlowCounts : Bool)
  /-- `Network::RegisterTCPSourceWithRetxTimer` of the endpoint with this
      identity. -/
  | registerTCPSource (connection : Nat)
deriving DecidableEq

/-! ### The matcher with statistics -/

section Headers

variable (hdr : Headers)

/-- `Matcher::MatchOrNull(pkt, input_port)` with the stats update of
    `MatchRule::ChooseOrNull(const Packet&)`: the pointer of the rule found,
    the index of the action chosen and that action once updated (`none` for
    `nullptr`), and the matcher with the rule updated in its map entry.  A
    wildcard input port fails the `CHECK`; `sampled` is the draw of the
    chosen action's sampler. -/
def Matcher.matchOrNullWithStats (m : Matcher) (pkt : Packet) (inputPort : DevicePortNumber)
    (sampled : Bool) : Option (Option ((Nat × Nat) × MatchRuleAction) × Matcher) :=
  if inputPort.raw = hdr.wild.kWildDevicePortNumber then none
  else match m.root_.matchOrNull (getKeyAndWildcard hdr.wild pkt.fiveTuple inputPort pkt.tag) with
    | none => some (none, m)
    | some ptr => do
      let e ← m.allRules_.entries.find? fun e => e.2.1 = ptr
      let (i?, rule) ← e.2.2.chooseOrNullPacket hdr.fiveTupleHash pkt sampled
      match i? with
      | none => some (none, m)
      | some i => do
        let action ← rule.actions_.get? i
        some (some ((ptr, i), action), { m with allRules_ := m.allRules_.insert e.1 (ptr, rule) })

/-! ### One call -/

/-- `DeviceInterface::FindOrCreatePort(port_num)`. -/
def Device.findOrCreatePort (d : Device) (portNum : DevicePortNumber) : Device × Port :=
  match d.portNumberToPort_.lookup portNum with
  | some port => (d, port)
  | none => ({ d with portNumberToPort_ := d.portNumberToPort_.insert portNum (Port.new portNum) },
      Port.new portNum)

/-- Modelled from the spec: `GetLoopbackPort()` (declared in `network.h`),
    the port numbered `kLoopbackPortNum`, created on first use. -/
def Device.getLoopbackPort (d : Device) : Device × Port :=
  d.findOrCreatePort kLoopbackPortNum

/-- `std::map::emplace(key, value)`: insert unless the key is present. -/
def emplace {α : Type} {β : α → Type} [DecidableEq α] (s : AList β) (a : α) (b : β a) : AList β :=
  if a ∈ s then s else s.insert a b

/-- Give the device a new endpoint of this kind under `key`, with the next
    identity. -/
def Device.addConnection (d : Device) (kind : ConnectionKind) (key : FiveTuple) : Device × Connection :=
  let connection : Connection := ⟨kind, key, d.nextConnection_⟩
  ({ d with connections_ := emplace d.connections_ key connection, nextConnection_ := d.nextConnection_ + 1 },
    connection)

/-- The endpoint `HandlePacket` creates for an incoming flow of this
    protocol: a UDP sink, a TCP sink, or the `LOG(FATAL)` for any other
    protocol. -/
def Headers.sinkKind (proto : UInt32) : Option ConnectionKind :=
  if proto = hdr.kProtoUDP then some .udpSink
  else if proto = hdr.kProtoTCP then some .tcpSink
  else none

/-- `Device::HandlePacket(pkt)`: an SSCP message (size zero) by its type; a
    data packet to the endpoint stored under its reversed five-tuple, which
    is created (a UDP or TCP sink by protocol) when there is none. -/
def Device.handlePacket (d : Device) (pkt : DevicePacket) : Option (Device × List DeviceEvent) :=
  if pkt.packet.sizeBytes = 0 then
    -- The packet is an SSCP message.
    let type := pkt.packet.fiveTuple.ipProto.toUInt8
    if type = hdr.kSSCPAddOrUpdateType then
      let d := { d with stats_ := { d.stats_ with routeUpdatesSeen := d.stats_.routeUpdatesSeen + 1 } }
      match pkt.message with
      | some (.addOrUpdate rule txId) => do
        let matcher ← d.matcher_.addRule hdr.wild rule
        let d := { d with matcher_ := matcher }
        match txId with
        | some tx => some (d, if d.repliesHandler_ then [.ack pkt.packet.fiveTuple.ipSrc tx] else [])
        | none => some (d, [])
      | _ => none
    else if type = hdr.kSSCPStatsRequestType then
      match pkt.message with
      | some (.statsRequest includeFlowCounts) =>
        if d.repliesHandler_ then some (d, [.statsReply pkt.packet.fiveTuple.ipSrc includeFlowCounts])
        else none
      | _ => none
    else some (d, [])
  else
    let incomingTuple := pkt.packet.fiveTuple
    let outgoingTuple := incomingTuple.reverse
    match d.connections_.lookup outgoingTuple with
    | some connection => some (d, [.deliver connection.id pkt])
    | none => do
      -- Will have to add a new sink for the incoming packets.
      let (d, _) := d.getLoopbackPort
      let kind ← hdr.sinkKind incomingTuple.ipProto
      let (d, connection) := d.addConnection kind outgoingTuple
      some (d, [.deliver connection.id pkt])

/-- `Device::PickSrcPortOrDie(t)`: the first source port `i` in
    `1 .. 65534` whose tuple is not a key of `connections_`; the `CHECK`
    fails when there is none. -/
def Device.pickSrcPortOrDie (d : Device) (t : FiveTuple) : Option FiveTuple :=
  ((List.range' 1 65534).map fun i => { t with srcPort := i.toUInt32 }).find? (· ∉ d.connections_)

/-- `Device::PrepareTuple(dst_address, dst_port, tcp)`. -/
def Device.prepareTuple (d : Device) (dstAddress dstPort : UInt32) (tcp : Bool) : Option FiveTuple :=
  d.pickSrcPortOrDie ⟨d.ipAddress_, dstAddress, if tcp then hdr.kProtoTCP else hdr.kProtoUDP,
    hdr.wild.kWildAccessLayerPort, dstPort⟩

/-- `Device::AddTCPGenerator(tcp_config, dst_address, dst_port)`: the new
    endpoint's identity; `CHECK(network_ != nullptr)` before registering it
    with the retransmit timer.  The configuration only reaches the
    endpoint's constructor and is not modelled. -/
def Device.addTCPGenerator (d : Device) (dstAddress dstPort : UInt32) :
    Option (Device × Nat × List DeviceEvent) := do
  let tuple ← d.prepareTuple hdr dstAddress dstPort true
  let (d, _) := d.getLoopbackPort
  if ¬d.network_ then none else
  let (d, connection) := d.addConnection .tcpSource tuple
  some (d, connection.id, [.registerTCPSource connection.id])

/-- `Device::AddUDPGenerator(dst_address, dst_port)`: the new endpoint's
    identity. -/
def Device.addUDPGenerator (d : Device) (dstAddress dstPort : UInt32) : Option (Device × Nat) := do
  let tuple ← d.prepareTuple hdr dstAddress dstPort false
  let (d, _) := d.getLoopbackPort
  let (d, connection) := d.addConnection .udpSource tuple
  some (d, connection.id)

/-- `Device::HandlePacketWithAction(input_port, pkt, action)`: take the
    action's tag unless it is `kNullPacketTag`, set the preferential-drop
    flag if the action has it, decrement the TTL (`LOG(FATAL)` when it
    expires), find the output port (`CHECK`), notify the observer of a
    crossing between internal and external ports, and send the packet out
    (a port with no out handler is a null dereference). -/
def Device.handlePacketWithAction (d : Device) (inputPort : Port) (pkt : DevicePacket)
    (action : MatchRuleAction) : Option (List DeviceEvent) := do
  let pkt := if action.tag_ ≠ hdr.kNullPacketTag then { pkt with packet.tag := action.tag_ } else pkt
  let pkt := if ¬pkt.preferentialDrop ∧ action.preferentialDrop_ then { pkt with preferentialDrop := true }
    else pkt
  let pkt ← pkt.decrementTTL
  let outputPort ← d.portNumberToPort_.lookup action.outputPort_
  let observed : List DeviceEvent :=
    if inputPort.internal_ ∧ ¬outputPort.internal_ ∧ d.internalExternalObserver_ then [.observePacket true pkt]
    else if ¬inputPort.internal_ ∧ outputPort.internal_ ∧ d.externalInternalObserver_ then
      [.observePacket false pkt]
    else []
  if outputPort.outHandler_ then some (observed ++ [.sendPacketOut outputPort.number_ pkt]) else none

/-- `Device::HandlePacketFromPort(input_port, pkt)`: count the packet;
    deliver it locally when it is addressed to the device; otherwise match
    it, count and drop a miss (`LOG(FATAL)` when `die_on_fail_to_match_`),
    and hand a hit to `HandlePacketWithAction`.  `sampled` is the draw of the
    chosen action's sampler. -/
def Device.handlePacketFromPort (d : Device) (inputPort : Port) (pkt : DevicePacket) (sampled : Bool) :
    Option (Device × List DeviceEvent) :=
  let pktSize := pkt.packet.sizeBytes.toUInt64
  let d := { d with stats_ := { d.stats_ with
    packetsSeen := d.stats_.packetsSeen + 1
    bytesSeen := d.stats_.bytesSeen + pktSize } }
  if pkt.packet.fiveTuple.ipDst = d.ipAddress_ then
    let d := { d with stats_ := { d.stats_ with
      packetsForLocalhost := d.stats_.packetsForLocalhost + 1
      bytesForLocalhost := d.stats_.bytesForLocalhost + pktSize } }
    d.handlePacket hdr pkt
  else do
    let (chosen, matcher) ← d.matcher_.matchOrNullWithStats hdr pkt.packet inputPort.number_ sampled
    let d := { d with matcher_ := matcher }
    match chosen with
    | none =>
      let d := { d with stats_ := { d.stats_ with
        packetsFailedToMatch := d.stats_.packetsFailedToMatch + 1
        bytesFailedToMatch := d.stats_.bytesFailedToMatch + pktSize } }
      -- Packet will be dropped.
      if d.dieOnFailToMatch_ then none else some (d, [])
    | some (_, action) => do
      let events ← d.handlePacketWithAction hdr inputPort pkt action
      some (d, events)

/-- The packets a list of events sends out of ports, in order. -/
def sentPackets : List DeviceEvent → List DevicePacket
  | [] => []
  | .sendPacketOut _ pkt :: evs => pkt :: sentPackets evs
  | _ :: evs => sentPackets evs

@[simp] theorem sentPackets_append (evs evs' : List DeviceEvent) :
    sentPackets (evs ++ evs') = sentPackets evs ++ sentPackets evs' := by
  induction evs with
  | nil => rfl
  | cons e evs ih => cases e <;> simp [sentPackets, ih]

/-! ### What one call does -/

/-- `FindOrCreatePort` changes nothing but the ports. -/
theorem Device.findOrCreatePort_fst (d : Device) (portNum : DevicePortNumber) :
    ∃ ports, (d.findOrCreatePort portNum).1 = { d with portNumberToPort_ := ports } := by
  unfold Device.findOrCreatePort
  split
  · exact ⟨d.portNumberToPort_, rfl⟩
  · exact ⟨_, rfl⟩

/-- What a completed lookup did: nothing on a miss or a null choice; on a
    hit, the action chosen in the rule that the pointer points to was
    updated, in the rule's map entry. -/
theorem Matcher.matchOrNullWithStats_eq_some {m m' : Matcher} {pkt : Packet} {inputPort : DevicePortNumber}
    {sampled : Bool} {chosen : Option ((Nat × Nat) × MatchRuleAction)}
    (h : m.matchOrNullWithStats hdr pkt inputPort sampled = some (chosen, m')) :
    match chosen with
    | none => m' = m
    | some ((ptr, i), action) => ∃ key rule a, m.allRules_.lookup key = some (ptr, rule) ∧
        rule.actions_.get? i = some a ∧ a.updateStats pkt sampled = some action ∧
        m' = { m with allRules_ := m.allRules_.insert key (ptr, { rule with actions_ := rule.actions_.set i action }) } := by
  unfold Matcher.matchOrNullWithStats at h
  split_ifs at h
  split at h
  · cases h; rfl
  · next ptr _ =>
    obtain ⟨e, he, h⟩ := Option.bind_eq_some.1 h
    obtain ⟨⟨i?, rule'⟩, hc, h⟩ := Option.bind_eq_some.1 h
    obtain ⟨hchoose, hrule'⟩ := MatchRule.chooseOrNullPacket_eq_some hdr.fiveTupleHash hc
    obtain ⟨k, ptr', rule⟩ := e
    obtain rfl : ptr' = ptr := by simpa using List.find?_some he
    have hk : m.allRules_.lookup k = some (ptr', rule) := AList.mem_lookup_iff.2 (List.mem_of_find?_eq_some he)
    cases i? with
    | none => cases h; rfl
    | some i =>
      obtain ⟨a, a', ha, ha', rfl⟩ := hrule'
      change rule.actions_.get? i = some a at ha
      have hi : i < rule.actions_.length := by
        rw [List.get?_eq_getElem?] at ha
        exact (List.getElem?_eq_some_iff.1 ha).1
      simp only [List.get?_eq_getElem?, List.getElem?_set_self hi, Option.bind_eq_bind, Option.some_bind,
        Option.some.injEq, Prod.mk.injEq] at h
      obtain ⟨rfl, rfl⟩ := h
      exact ⟨k, rule, a, hk, ha, ha', rfl⟩

/-- `HandlePacketWithAction` sends the packet out of exactly one port, at its
    size. -/
theorem Device.sentPackets_handlePacketWithAction {d : Device} {inputPort : Port} {pkt : DevicePacket}
    {action : MatchRuleAction} {evs : List DeviceEvent}
    (h : d.handlePacketWithAction hdr inputPort pkt action = some evs) :
    ∃ pkt', sentPackets evs = [pkt'] ∧ pkt'.packet.sizeBytes = pkt.packet.sizeBytes := by
  unfold Device.handlePacketWithAction at h
  obtain ⟨pkt', hpkt', h⟩ := Option.bind_eq_some.1 h
  obtain ⟨port, -, h⟩ := Option.bind_eq_some.1 h
  have hsize : pkt'.packet.sizeBytes = pkt.packet.sizeBytes := by
    unfold DevicePacket.decrementTTL at hpkt'
    split_ifs at hpkt' <;> cases hpkt' <;> rfl
  split_ifs at h <;> cases h <;> exact ⟨pkt', by simp [sentPackets], hsize⟩

/-- `DecrementTTL` succeeds exactly on a TTL above one, and lowers it by one. -/
theorem DevicePacket.decrementTTL_eq_some {p p' : DevicePacket} :
    p.decrementTTL = some p' ↔ 1 < p.ttl ∧ p' = { p with ttl := p.ttl - 1 } := by
  unfold DevicePacket.decrementTTL
  split_ifs with h
  · simp only [reduceCtorEq, false_iff, not_and]
    omega
  · rw [Option.some.injEq, eq_comm]
    exact ⟨fun h' => ⟨by omega, h'⟩, And.right⟩

/-- `HandlePacketWithAction` sends the packet with its TTL lowered by one, so
    only a packet whose TTL is above one is forwarded. -/
theorem Device.ttl_handlePacketWithAction {d : Device} {inputPort : Port} {pkt : DevicePacket}
    {action : MatchRuleAction} {evs : List DeviceEvent}
    (h : d.handlePacketWithAction hdr inputPort pkt action = some evs) :
    ∀ p ∈ sentPackets evs, p.ttl + 1 = pkt.ttl := by
  unfold Device.handlePacketWithAction at h
  obtain ⟨pkt', hpkt', h⟩ := Option.bind_eq_some.1 h
  obtain ⟨port, -, h⟩ := Option.bind_eq_some.1 h
  obtain ⟨hlt, rfl⟩ := DevicePacket.decrementTTL_eq_some.1 hpkt'
  have httl : ∀ q : DevicePacket, q.ttl = pkt.ttl → 1 < q.ttl → (q.ttl - 1) + 1 = pkt.ttl := by omega
  split_ifs at h <;> cases h <;> simp only [sentPackets, List.mem_singleton, List.mem_append, List.mem_nil_iff,
    or_false, false_or, forall_eq] <;> split_ifs at hlt ⊢ <;> exact httl _ rfl hlt

/-- What an SSCP message (a packet of size zero) does: it moves
    `route_updates_seen` and, for an add-or-update message, the matcher by
    its `AddRule`; nothing goes out of a port or to an endpoint. -/
theorem Device.handlePacket_control {d d' : Device} {pkt : DevicePacket} {evs : List DeviceEvent}
    (hsize : pkt.packet.sizeBytes = 0) (h : d.handlePacket hdr pkt = some (d', evs)) :
    sentPackets evs = [] ∧ (∀ i p, DeviceEvent.deliver i p ∉ evs) ∧
    (∃ r, d' = { d with stats_ := { d.stats_ with routeUpdatesSeen := r }, matcher_ := d'.matcher_ }) ∧
    if pkt.packet.fiveTuple.ipProto.toUInt8 = hdr.kSSCPAddOrUpdateType then
      ∃ rule txId, pkt.message = some (.addOrUpdate rule txId) ∧ d.matcher_.addRule hdr.wild rule = some d'.matcher_
    else d'.matcher_ = d.matcher_ := by
  unfold Device.handlePacket at h
  rw [if_pos hsize] at h
  by_cases htype : pkt.packet.fiveTuple.ipProto.toUInt8 = hdr.kSSCPAddOrUpdateType
  · -- an add-or-update message
    rw [if_pos htype] at h
    rcases hmsg : pkt.message with _ | ⟨rule, txId⟩ | flag <;> simp only [hmsg, reduceCtorEq] at h
    obtain ⟨matcher, hadd, h⟩ := Option.bind_eq_some.1 h
    have hs : sentPackets evs = [] ∧ (∀ i p, DeviceEvent.deliver i p ∉ evs) ∧ d' = { d with
        stats_ := { d.stats_ with routeUpdatesSeen := d.stats_.routeUpdatesSeen + 1 }
        matcher_ := matcher } := by
      cases txId <;> simp only [Option.some.injEq, Prod.mk.injEq] at h <;> obtain ⟨rfl, rfl⟩ := h <;>
        (try split_ifs) <;> exact ⟨rfl, by simp, rfl⟩
    obtain ⟨hevs, hdeliver, rfl⟩ := hs
    exact ⟨hevs, hdeliver, ⟨_, rfl⟩, by rw [if_pos htype]; exact ⟨rule, txId, rfl, hadd⟩⟩
  · rw [if_neg htype] at h
    by_cases hreq : pkt.packet.fiveTuple.ipProto.toUInt8 = hdr.kSSCPStatsRequestType
    · -- a stats request
      rw [if_pos hreq] at h
      rcases hmsg : pkt.message with _ | ⟨rule, txId⟩ | flag <;> simp only [hmsg, reduceCtorEq] at h
      by_cases hr : d.repliesHandler_ = true
      · rw [if_pos hr] at h
        cases h
        exact ⟨rfl, by simp, ⟨_, rfl⟩, by rw [if_neg htype]⟩
      · rw [if_neg hr] at h
        cases h
    · rw [if_neg hreq] at h
      cases h
      exact ⟨rfl, by simp, ⟨_, rfl⟩, by rw [if_neg htype]⟩

/-- What a data packet (a packet of nonzero size) does: it goes to the
    endpoint stored under its reversed five-tuple; when there is none, a
    sink for the flow is stored there first, with the next identity. -/
theorem Device.handlePacket_data {d d' : Device} {pkt : DevicePacket} {evs : List DeviceEvent}
    (hsize : pkt.packet.sizeBytes ≠ 0) (h : d.handlePacket hdr pkt = some (d', evs)) :
    ∃ c, evs = [.deliver c.id pkt] ∧
      ((d.connections_.lookup pkt.packet.fiveTuple.reverse = some c ∧ d' = d) ∨
       (d.connections_.lookup pkt.packet.fiveTuple.reverse = none ∧ c.fiveTuple = pkt.packet.fiveTuple.reverse ∧
        c.id = d.nextConnection_ ∧ ∃ ports, d' = { d with
          portNumberToPort_ := ports
          connections_ := d.connections_.insert pkt.packet.fiveTuple.reverse c
          nextConnection_ := d.nextConnection_ + 1 })) := by
  unfold Device.handlePacket at h
  rw [if_neg hsize] at h
  dsimp only at h
  cases hlook : d.connections_.lookup pkt.packet.fiveTuple.reverse with
  | some connection =>
    rw [hlook] at h
    cases h
    exact ⟨connection, rfl, .inl ⟨rfl, rfl⟩⟩
  | none =>
    rw [hlook] at h
    obtain ⟨kind, -, h⟩ := Option.bind_eq_some.1 h
    cases h
    obtain ⟨ports, hports⟩ := d.findOrCreatePort_fst kLoopbackPortNum
    have hk : pkt.packet.fiveTuple.reverse ∉ d.connections_ := AList.lookup_eq_none.1 hlook
    refine ⟨_, rfl, .inr ⟨rfl, rfl, ?_, ports, ?_⟩⟩ <;>
      simp only [Device.getLoopbackPort, hports, Device.addConnection, emplace, if_neg hk]

/-- What local delivery does: nothing is sent out of a port, no counter but
    `route_updates_seen` moves, and the matcher changes only by the `AddRule`
    of an SSCP add-or-update message. -/
theorem Device.handlePacket_eq_some {d d' : Device} {pkt : DevicePacket} {evs : List DeviceEvent}
    (h : d.handlePacket hdr pkt = some (d', evs)) :
    sentPackets evs = [] ∧ d'.ipAddress_ = d.ipAddress_ ∧
    (∃ r, d'.stats_ = { d.stats_ with routeUpdatesSeen := r }) ∧
    if pkt.packet.sizeBytes = 0 ∧ pkt.packet.fiveTuple.ipProto.toUInt8 = hdr.kSSCPAddOrUpdateType then
      ∃ rule txId, pkt.message = some (.addOrUpdate rule txId) ∧ d.matcher_.addRule hdr.wild rule = some d'.matcher_
    else d'.matcher_ = d.matcher_ := by
  by_cases hsize : pkt.packet.sizeBytes = 0
  · obtain ⟨hsent, -, ⟨r, hd'⟩, hm⟩ := Device.handlePacket_control hdr hsize h
    refine ⟨hsent, by rw [hd'], ⟨r, by rw [hd']⟩, ?_⟩
    simpa only [hsize, true_and] using hm
  · rw [if_neg fun h => hsize h.1]
    obtain ⟨c, rfl, ⟨-, rfl⟩ | ⟨-, -, -, ports, rfl⟩⟩ := Device.handlePacket_data hdr hsize h
    all_goals exact ⟨rfl, rfl, ⟨_, rfl⟩, rfl⟩

/-- What `HandlePacketFromPort` does: it counts the packet, then either
    delivers it locally, counts a miss and drops it, or hands the matched
    action to `HandlePacketWithAction`. -/
theorem Device.handlePacketFromPort_eq_some {d d' : Device} {inputPort : Port} {pkt : DevicePacket}
    {sampled : Bool} {evs : List DeviceEvent}
    (h : d.handlePacketFromPort hdr inputPort pkt sampled = some (d', evs)) :
    let size := pkt.packet.sizeBytes.toUInt64
    let seen : DeviceStats := { d.stats_ with
      packetsSeen := d.stats_.packetsSeen + 1, bytesSeen := d.stats_.bytesSeen + size }
    (pkt.packet.fiveTuple.ipDst = d.ipAddress_ ∧
      Device.handlePacket hdr { d with stats_ := { seen with
        packetsForLocalhost := d.stats_.packetsForLocalhost + 1
        bytesForLocalhost := d.stats_.bytesForLocalhost + size } } pkt = some (d', evs)) ∨
    (pkt.packet.fiveTuple.ipDst ≠ d.ipAddress_ ∧
      d.matcher_.matchOrNullWithStats hdr pkt.packet inputPort.number_ sampled = some (none, d'.matcher_) ∧
      d' = { d with
        stats_ := { seen with
          packetsFailedToMatch := d.stats_.packetsFailedToMatch + 1
          bytesFailedToMatch := d.stats_.bytesFailedToMatch + size }
        matcher_ := d'.matcher_ } ∧ evs = []) ∨
    (pkt.packet.fiveTuple.ipDst ≠ d.ipAddress_ ∧ ∃ ptrI action,
      d.matcher_.matchOrNullWithStats hdr pkt.packet inputPort.number_ sampled =
        some (some (ptrI, action), d'.matcher_) ∧
      d' = { d with stats_ := seen, matcher_ := d'.matcher_ } ∧
      d'.handlePacketWithAction hdr inputPort pkt action = some evs) := by
  unfold Device.handlePacketFromPort at h
  dsimp only at h ⊢
  by_cases hlocal : pkt.packet.fiveTuple.ipDst = d.ipAddress_
  · rw [if_pos hlocal] at h
    exact .inl ⟨hlocal, h⟩
  · rw [if_neg hlocal] at h
    obtain ⟨⟨chosen, matcher⟩, hm, h⟩ := Option.bind_eq_some.1 h
    dsimp only at h
    cases chosen with
    | none =>
      by_cases hdie : d.dieOnFailToMatch_ = true
      · rw [if_pos hdie] at h
        cases h
      · rw [if_neg hdie] at h
        cases h
        exact .inr (.inl ⟨hlocal, hm, rfl, rfl⟩)
    | some c =>
      obtain ⟨ptrI, action⟩ := c
      obtain ⟨events, hevents, h⟩ := Option.bind_eq_some.1 h
      cases h
      exact .inr (.inr ⟨hlocal, ptrI, action, hm, rfl, hevents⟩)

end Headers

/-- Headers for the examples: the wildcards of `exampleWildcards`, a hash of
    zero, tag zero as `kNullPacketTag`, SSCP types `1` and `2`, and the IP
    protocol numbers of TCP and UDP. -/
def exampleHeaders : Headers := ⟨exampleWildcards, fun _ => 0, ⟨0⟩, 1, 2, 6, 17⟩

end NcodeCommon.Htsim
