import NcodeCommon.Htsim.Device

/-!
# The connection table of a device

`connections_` maps five-tuples to the endpoints the device owns.  Three calls
add to it: `AddTCPGenerator` and `AddUDPGenerator` store a source under the
tuple whose source port `PickSrcPortOrDie` picks, and `HandlePacket` stores a
sink under the reversed five-tuple of a data packet when there is none.
Each of them inserts with `std::map::emplace`, which keeps the old entry and
destroys the new endpoint if the key is present; the raw pointer the call then
returns or registers would dangle.

Here the key is always absent.  The source port is the least free one in
`1 .. 65534` (`pickSrcPortOrDie_eq_some`), and a sink is only made after the
lookup fails.  So every call keeps the table or adds one endpoint under an
absent key (`Device.tableStep_endpointStep`), entries are never removed or
replaced over a run (`Device.lookup_endpointRun`), and every data packet goes
to the endpoint stored under its reversed five-tuple, the same for all the
packets of a flow (`connection_table`).  `AddTCPGenerator` also aborts on a
device that is not part of a network, whether or not a port is free
(`addTCPGenerator_no_network`).
-/

namespace NcodeCommon.Htsim

/-! ### `PickSrcPortOrDie` -/

/-- `p` is the least source port in `1 .. 65534` whose tuple is not a key of
    the table. -/
def LeastFreeSrcPort (s : AList fun _ : FiveTuple => Connection) (t : FiveTuple) (p : Nat) : Prop :=
  1 ≤ p ∧ p ≤ 65534 ∧ { t with srcPort := p.toUInt32 } ∉ s ∧
    ∀ q, 1 ≤ q → q < p → { t with srcPort := q.toUInt32 } ∈ s

/-- `PickSrcPortOrDie` picks the least free source port. -/
theorem Device.pickSrcPortOrDie_eq_some {d : Device} {t t' : FiveTuple} :
    d.pickSrcPortOrDie t = some t' ↔
      ∃ p, LeastFreeSrcPort d.connections_ t p ∧ t' = { t with srcPort := p.toUInt32 } := by
  simp only [Device.pickSrcPortOrDie, List.find?_map, Option.map_eq_some', List.find?_range'_eq_some,
    List.mem_range'_1, Function.comp_apply, LeastFreeSrcPort]
  constructor
  · rintro ⟨p, ⟨hp, ⟨h₁, h₂⟩, hq⟩, rfl⟩
    exact ⟨p, ⟨h₁, by omega, by simpa using hp, fun q hq₁ hq₂ => by simpa using hq q hq₁ hq₂⟩, rfl⟩
  · rintro ⟨p, ⟨h₁, h₂, hp, hq⟩, rfl⟩
    exact ⟨p, ⟨by simpa using hp, ⟨h₁, by omega⟩, fun q hq₁ hq₂ => by simpa using hq q hq₁ hq₂⟩, rfl⟩

/-- `PickSrcPortOrDie` fails its `CHECK` exactly when every source port in
    `1 .. 65534` is taken. -/
theorem Device.pickSrcPortOrDie_eq_none {d : Device} {t : FiveTuple} :
    d.pickSrcPortOrDie t = none ↔ ∀ p, 1 ≤ p → p ≤ 65534 → { t with srcPort := p.toUInt32 } ∈ d.connections_ := by
  simp only [Device.pickSrcPortOrDie, List.find?_map, Option.map_eq_none', List.find?_range'_eq_none,
    Function.comp_apply, decide_not, Bool.not_not, decide_eq_true_eq]
  exact ⟨fun h p h₁ h₂ => h p h₁ (by omega), fun h p h₁ h₂ => h p h₁ (by omega)⟩

/-! ### The generators -/

/-- `GetLoopbackPort` changes nothing but the ports. -/
theorem Device.getLoopbackPort_eq (d : Device) :
    ∃ ports port, d.getLoopbackPort = ({ d with portNumberToPort_ := ports }, port) := by
  obtain ⟨ports, h⟩ := d.findOrCreatePort_fst kLoopbackPortNum
  exact ⟨ports, _, Prod.ext h rfl⟩

section Headers

variable (hdr : Headers)

theorem Device.prepareTuple_not_mem {d : Device} {dstAddress dstPort : UInt32} {tcp : Bool} {t : FiveTuple}
    (h : d.prepareTuple hdr dstAddress dstPort tcp = some t) : t ∉ d.connections_ := by
  obtain ⟨p, ⟨-, -, hp, -⟩, rfl⟩ := Device.pickSrcPortOrDie_eq_some.1 h
  exact hp

/-- What a completed `AddTCPGenerator` does: it stores a TCP source under the
    prepared tuple, which was absent, with the next identity, registers it
    with the retransmit timer and returns it. -/
theorem Device.addTCPGenerator_eq_some {d d' : Device} {dstAddress dstPort : UInt32} {id : Nat}
    {evs : List DeviceEvent} (h : d.addTCPGenerator hdr dstAddress dstPort = some (d', id, evs)) :
    ∃ tuple, d.prepareTuple hdr dstAddress dstPort true = some tuple ∧ d.network_ = true ∧
      id = d.nextConnection_ ∧ evs = [.registerTCPSource id] ∧ ∃ ports, d' = { d with
        portNumberToPort_ := ports
        connections_ := d.connections_.insert tuple ⟨.tcpSource, tuple, id⟩
        nextConnection_ := id + 1 } := by
  unfold Device.addTCPGenerator at h
  obtain ⟨tuple, htuple, h⟩ := Option.bind_eq_some.1 h
  obtain ⟨ports, port, hloop⟩ := d.getLoopbackPort_eq
  rw [hloop] at h
  dsimp only at h
  by_cases hnet : d.network_ = true
  · rw [if_neg (not_not.2 hnet)] at h
    simp only [Device.addConnection, emplace, if_neg (Device.prepareTuple_not_mem hdr htuple),
      Option.some.injEq, Prod.mk.injEq] at h
    obtain ⟨rfl, rfl, rfl⟩ := h
    exact ⟨tuple, htuple, hnet, rfl, rfl, ports, rfl⟩
  · rw [if_pos hnet] at h
    cases h

/-- `AddTCPGenerator` aborts exactly when no source port is free or the
    device is not part of a network. -/
theorem Device.addTCPGenerator_eq_none {d : Device} {dstAddress dstPort : UInt32} :
    d.addTCPGenerator hdr dstAddress dstPort = none ↔
      d.prepareTuple hdr dstAddress dstPort true = none ∨ d.network_ = false := by
  unfold Device.addTCPGenerator
  obtain ⟨ports, port, hloop⟩ := d.getLoopbackPort_eq
  cases d.prepareTuple hdr dstAddress dstPort true with
  | none => simp
  | some tuple =>
    simp only [Option.bind_eq_bind, Option.some_bind, hloop, reduceCtorEq, false_or]
    cases d.network_ <;> simp

/-- What a completed `AddUDPGenerator` does: it stores a UDP source under the
    prepared tuple, which was absent, with the next identity, and returns
    it. -/
theorem Device.addUDPGenerator_eq_some {d d' : Device} {dstAddress dstPort : UInt32} {id : Nat}
    (h : d.addUDPGenerator hdr dstAddress dstPort = some (d', id)) :
    ∃ tuple, d.prepareTuple hdr dstAddress dstPort false = some tuple ∧ id = d.nextConnection_ ∧
      ∃ ports, d' = { d with
        portNumberToPort_ := ports
        connections_ := d.connections_.insert tuple ⟨.udpSource, tuple, id⟩
        nextConnection_ := id + 1 } := by
  unfold Device.addUDPGenerator at h
  obtain ⟨tuple, htuple, h⟩ := Option.bind_eq_some.1 h
  obtain ⟨ports, port, hloop⟩ := d.getLoopbackPort_eq
  rw [hloop] at h
  simp only [Device.addConnection, emplace, if_neg (Device.prepareTuple_not_mem hdr htuple),
    Option.some.injEq, Prod.mk.injEq] at h
  obtain ⟨rfl, rfl⟩ := h
  exact ⟨tuple, htuple, rfl, ports, rfl⟩

/-- `AddUDPGenerator` aborts exactly when no source port is free. -/
theorem Device.addUDPGenerator_eq_none {d : Device} {dstAddress dstPort : UInt32} :
    d.addUDPGenerator hdr dstAddress dstPort = none ↔ d.prepareTuple hdr dstAddress dstPort false = none := by
  unfold Device.addUDPGenerator
  cases d.prepareTuple hdr dstAddress dstPort false <;> simp

/-! ### Runs -/

/-- A call that may give the device an endpoint: one of the generators, or
    `HandlePacket` on a packet for the device. -/
inductive EndpointCall where
  | addTCPGenerator (dstAddress dstPort : UInt32)
  | addUDPGenerator (dstAddress dstPort : UInt32)
  | handlePacket (pkt : DevicePacket)

/-- One call: the device after it and what it did outside the device. -/
def Device.endpointStep (d : Device) : EndpointCall → Option (Device × List DeviceEvent)
  | .addTCPGenerator dstAddress dstPort => (d.addTCPGenerator hdr dstAddress dstPort).map fun r => (r.1, r.2.2)
  | .addUDPGenerator dstAddress dstPort => (d.addUDPGenerator hdr dstAddress dstPort).map fun r => (r.1, [])
  | .handlePacket pkt => d.handlePacket hdr pkt

/-- Any interleaving of such calls; `none` when one aborts. -/
def Device.endpointRun (d : Device) : List EndpointCall → Option (Device × List DeviceEvent)
  | [] => some (d, [])
  | c :: rest => do
    let (d₁, evs) ← d.endpointStep hdr c
    let (d₂, evs') ← d₁.endpointRun rest
    some (d₂, evs ++ evs')

/-- What a call may do to the connection table: keep it, or store one
    endpoint, with the next identity, under its five-tuple, which was not a
    key. -/
def Device.TableStep (d d' : Device) : Prop :=
  (d'.connections_ = d.connections_ ∧ d'.nextConnection_ = d.nextConnection_) ∨
  ∃ c : Connection, c.fiveTuple ∉ d.connections_ ∧ c.id = d.nextConnection_ ∧
    d'.connections_ = d.connections_.insert c.fiveTuple c ∧ d'.nextConnection_ = d.nextConnection_ + 1

/-- A table step keeps every entry. -/
theorem Device.TableStep.lookup {d d' : Device} (h : d.TableStep d') {k : FiveTuple} {c : Connection}
    (hk : d.connections_.lookup k = some c) : d'.connections_.lookup k = some c := by
  obtain ⟨h', -⟩ | ⟨c', hnew, -, h', -⟩ := h
  · rwa [h']
  · have hne : k ≠ c'.fiveTuple := by
      rintro rfl
      exact hnew (AList.lookup_isSome.1 (by rw [hk]; rfl))
    rwa [h', AList.lookup_insert_ne hne]

theorem Device.tableStep_handlePacket {d d' : Device} {pkt : DevicePacket} {evs : List DeviceEvent}
    (h : d.handlePacket hdr pkt = some (d', evs)) : d.TableStep d' := by
  by_cases hsize : pkt.packet.sizeBytes = 0
  · obtain ⟨-, -, ⟨r, hd'⟩, -⟩ := Device.handlePacket_control hdr hsize h
    exact .inl ⟨by rw [hd'], by rw [hd']⟩
  · obtain ⟨c, -, ⟨-, rfl⟩ | ⟨hnone, hkey, hid, ports, rfl⟩⟩ := Device.handlePacket_data hdr hsize h
    · exact .inl ⟨rfl, rfl⟩
    · exact .inr ⟨c, hkey ▸ AList.lookup_eq_none.1 hnone, hid, by rw [hkey], rfl⟩

/-- Every call keeps the table or stores one endpoint under an absent key. -/
theorem Device.tableStep_endpointStep {d d' : Device} {c : EndpointCall} {evs : List DeviceEvent}
    (h : d.endpointStep hdr c = some (d', evs)) : d.TableStep d' := by
  cases c with
  | addTCPGenerator dstAddress dstPort =>
    obtain ⟨⟨d₁, id, evs₁⟩, hgen, heq⟩ := Option.map_eq_some'.1 h
    cases heq
    obtain ⟨tuple, htuple, -, rfl, -, ports, rfl⟩ := Device.addTCPGenerator_eq_some hdr hgen
    exact .inr ⟨⟨.tcpSource, tuple, d.nextConnection_⟩, Device.prepareTuple_not_mem hdr htuple, rfl, rfl, rfl⟩
  | addUDPGenerator dstAddress dstPort =>
    obtain ⟨⟨d₁, id⟩, hgen, heq⟩ := Option.map_eq_some'.1 h
    cases heq
    obtain ⟨tuple, htuple, rfl, ports, rfl⟩ := Device.addUDPGenerator_eq_some hdr hgen
    exact .inr ⟨⟨.udpSource, tuple, d.nextConnection_⟩, Device.prepareTuple_not_mem hdr htuple, rfl, rfl, rfl⟩
  | handlePacket pkt => exact Device.tableStep_handlePacket hdr h

/-- Only `HandlePacket` on a data packet hands a packet to an endpoint: the
    one stored under the packet's reversed five-tuple after the call. -/
theorem Device.deliver_endpointStep {d d' : Device} {c : EndpointCall} {evs : List DeviceEvent}
    (h : d.endpointStep hdr c = some (d', evs)) {i : Nat} {pkt : DevicePacket} (hmem : .deliver i pkt ∈ evs) :
    ∃ conn, d'.connections_.lookup pkt.packet.fiveTuple.reverse = some conn ∧ conn.id = i := by
  cases c with
  | addTCPGenerator dstAddress dstPort =>
    obtain ⟨⟨d₁, id, evs₁⟩, hgen, heq⟩ := Option.map_eq_some'.1 h
    cases heq
    obtain ⟨-, -, -, -, rfl, -⟩ := Device.addTCPGenerator_eq_some hdr hgen
    simp at hmem
  | addUDPGenerator dstAddress dstPort =>
    obtain ⟨⟨d₁, id⟩, -, heq⟩ := Option.map_eq_some'.1 h
    cases heq
    cases hmem
  | handlePacket p =>
    by_cases hsize : p.packet.sizeBytes = 0
    · exact absurd hmem ((Device.handlePacket_control hdr hsize h).2.1 i pkt)
    · obtain ⟨conn, rfl, ⟨hlook, rfl⟩ | ⟨-, -, -, ports, rfl⟩⟩ := Device.handlePacket_data hdr hsize h
      all_goals
        obtain ⟨rfl, rfl⟩ : i = conn.id ∧ pkt = p := by simpa using hmem
      · exact ⟨conn, hlook, rfl⟩
      · exact ⟨conn, AList.lookup_insert _, rfl⟩

/-- Over a run every entry of the table is kept, and every packet handed to
    an endpoint went to the one the table stores under its reversed
    five-tuple at the end. -/
theorem Device.lookup_endpointRun {d d' : Device} {calls : List EndpointCall} {events : List DeviceEvent}
    (h : d.endpointRun hdr calls = some (d', events)) :
    (∀ k c, d.connections_.lookup k = some c → d'.connections_.lookup k = some c) ∧
    ∀ i pkt, DeviceEvent.deliver i pkt ∈ events →
      ∃ conn, d'.connections_.lookup pkt.packet.fiveTuple.reverse = some conn ∧ conn.id = i := by
  induction calls generalizing d events with
  | nil =>
    cases h
    exact ⟨fun _ _ hk => hk, fun _ _ hmem => by cases hmem⟩
  | cons c rest ih =>
    obtain ⟨⟨d₁, evs₁⟩, h₁, hrest⟩ := Option.bind_eq_some.1 h
    obtain ⟨⟨d₂, evs₂⟩, h₂, heq⟩ := Option.bind_eq_some.1 hrest
    cases heq
    obtain ⟨hkeep, hdeliver⟩ := ih h₂
    have hstep := Device.tableStep_endpointStep hdr h₁
    refine ⟨fun k c hk => hkeep k c (hstep.lookup hk), fun i pkt hmem => ?_⟩
    rcases List.mem_append.1 hmem with hmem | hmem
    · obtain ⟨conn, hlook, hid⟩ := Device.deliver_endpointStep hdr h₁ hmem
      exact ⟨conn, hkeep _ _ hlook, hid⟩
    · exact hdeliver i pkt hmem

/-- The connection table over any interleaving of the generators and
    `HandlePacket`: every call keeps the table or stores one endpoint under a
    key that was absent; a generator stores the endpoint it returns under the
    tuple with the least free source port, and aborts only when no port is
    free or, for `AddTCPGenerator`, when the device is not part of a network;
    a data packet goes to the endpoint stored under its reversed five-tuple;
    and over a run no entry is removed or replaced, so all the packets of a
    flow go to one endpoint. -/
theorem connection_table :
    (∀ (d d' : Device) c evs, d.endpointStep hdr c = some (d', evs) → d.TableStep d') ∧
    (∀ (d d' : Device) dstAddress dstPort id evs,
      d.addTCPGenerator hdr dstAddress dstPort = some (d', id, evs) →
      ∃ p, LeastFreeSrcPort d.connections_
          ⟨d.ipAddress_, dstAddress, hdr.kProtoTCP, hdr.wild.kWildAccessLayerPort, dstPort⟩ p ∧
        d'.connections_.lookup ⟨d.ipAddress_, dstAddress, hdr.kProtoTCP, p.toUInt32, dstPort⟩ =
          some ⟨.tcpSource, ⟨d.ipAddress_, dstAddress, hdr.kProtoTCP, p.toUInt32, dstPort⟩, id⟩ ∧
        evs = [.registerTCPSource id]) ∧
    (∀ (d d' : Device) dstAddress dstPort id, d.addUDPGenerator hdr dstAddress dstPort = some (d', id) →
      ∃ p, LeastFreeSrcPort d.connections_
          ⟨d.ipAddress_, dstAddress, hdr.kProtoUDP, hdr.wild.kWildAccessLayerPort, dstPort⟩ p ∧
        d'.connections_.lookup ⟨d.ipAddress_, dstAddress, hdr.kProtoUDP, p.toUInt32, dstPort⟩ =
          some ⟨.udpSource, ⟨d.ipAddress_, dstAddress, hdr.kProtoUDP, p.toUInt32, dstPort⟩, id⟩) ∧
    (∀ (d : Device) dstAddress dstPort, d.addTCPGenerator hdr dstAddress dstPort = none ↔
      (∀ p, 1 ≤ p → p ≤ 65534 →
        (⟨d.ipAddress_, dstAddress, hdr.kProtoTCP, p.toUInt32, dstPort⟩ : FiveTuple) ∈ d.connections_) ∨
      d.network_ = false) ∧
    (∀ (d : Device) dstAddress dstPort, d.addUDPGenerator hdr dstAddress dstPort = none ↔
      ∀ p, 1 ≤ p → p ≤ 65534 →
        (⟨d.ipAddress_, dstAddress, hdr.kProtoUDP, p.toUInt32, dstPort⟩ : FiveTuple) ∈ d.connections_) ∧
    (∀ (d d' : Device) pkt evs, pkt.packet.sizeBytes ≠ 0 → d.handlePacket hdr pkt = some (d', evs) →
      ∃ c, d'.connections_.lookup pkt.packet.fiveTuple.reverse = some c ∧ evs = [.deliver c.id pkt]) ∧
    (∀ (d d' : Device) calls events, d.endpointRun hdr calls = some (d', events) →
      (∀ k c, d.connections_.lookup k = some c → d'.connections_.lookup k = some c) ∧
      ∀ i j pkt pkt', DeviceEvent.deliver i pkt ∈ events → DeviceEvent.deliver j pkt' ∈ events →
        pkt.packet.fiveTuple = pkt'.packet.fiveTuple → i = j) := by
  refine ⟨fun d d' c evs h => Device.tableStep_endpointStep hdr h, ?_, ?_,
    fun d _ _ => (Device.addTCPGenerator_eq_none hdr).trans (or_congr_left Device.pickSrcPortOrDie_eq_none),
    fun d _ _ => (Device.addUDPGenerator_eq_none hdr).trans Device.pickSrcPortOrDie_eq_none, ?_, ?_⟩
  · -- a TCP generator
    intro d d' dstAddress dstPort id evs h
    obtain ⟨tuple, htuple, -, rfl, rfl, ports, rfl⟩ := Device.addTCPGenerator_eq_some hdr h
    obtain ⟨p, hp, rfl⟩ := Device.pickSrcPortOrDie_eq_some.1 htuple
    exact ⟨p, hp, AList.lookup_insert _, rfl⟩
  · -- a UDP generator
    intro d d' dstAddress dstPort id h
    obtain ⟨tuple, htuple, rfl, ports, rfl⟩ := Device.addUDPGenerator_eq_some hdr h
    obtain ⟨p, hp, rfl⟩ := Device.pickSrcPortOrDie_eq_some.1 htuple
    exact ⟨p, hp, AList.lookup_insert _⟩
  · -- a data packet
    intro d d' pkt evs hsize h
    obtain ⟨c, rfl, ⟨hlook, rfl⟩ | ⟨-, -, -, ports, rfl⟩⟩ := Device.handlePacket_data hdr hsize h
    · exact ⟨c, hlook, rfl⟩
    · exact ⟨c, AList.lookup_insert _, rfl⟩
  · -- a run
    intro d d' calls events h
    obtain ⟨hkeep, hdeliver⟩ := Device.lookup_endpointRun hdr h
    refine ⟨hkeep, fun i j pkt pkt' hi hj hf => ?_⟩
    obtain ⟨c, hc, rfl⟩ := hdeliver i pkt hi
    obtain ⟨c', hc', rfl⟩ := hdeliver j pkt' hj
    rw [hf, hc'] at hc
    cases hc
    rfl

end Headers

/-- A new device has a free source port, yet `AddTCPGenerator` aborts: the
    device is not part of a network. -/
theorem addTCPGenerator_no_network :
    (Device.new "d" 9).prepareTuple exampleHeaders 2 80 true = some ⟨9, 2, 6, 1, 80⟩ ∧
    (Device.new "d" 9).addTCPGenerator exampleHeaders 2 80 = none :=
  ⟨by decide, (Device.addTCPGenerator_eq_none exampleHeaders).2 (.inr rfl)⟩

end NcodeCommon.Htsim
