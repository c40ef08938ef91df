import NcodeCommon.Htsim.DeviceAccounting

/-!
# Forwarding across the network

`Network::AddLink` wires the port `src_port_num` of device `src_id` to a
`Queue`, the queue to a `Pipe`, and the pipe to the port `dst_port_num` of
device `dst_id`.  A packet a device sends out of such a port is in flight in
that link until the queue drops it or the pipe hands it to
`Port::HandlePacket` at the far end, which calls the far device's
`HandlePacketFromPort`.  A packet sent out of a port no link starts at (one
connected by other means) leaves the modelled network.

Here any packet in flight may be delivered or dropped next: queue
disciplines and link delays only pick which of these interleavings a
simulation runs, so what holds of every run below holds of every schedule
of the simulator.  Over any run that does not abort:

* every packet that entered the network, injected at a port or in flight at
  the start, is accounted for exactly once: the devices took it off the
  network (delivered locally, or failed to match), a queue dropped it, it
  left, or it is still in flight (`Net.run_conserves`), counted in packets
  and in bytes, modulo `2^64` as the `uint64_t` counters count;
* every hop lowers a packet's TTL, so the number of deliveries and drops is
  bounded by the TTLs of the packets injected or in flight at the start,
  whatever the schedule (`Net.run_hops_le`): no packet is forwarded forever.
-/

namespace NcodeCommon.Htsim

/-! ### Packets sent out of ports -/

/-- The packets a list of events sends out of ports, each with the number of
    the port it is sent out of. -/
def sentOut : List DeviceEvent → List (DevicePortNumber × DevicePacket)
  | [] => []
  | .sendPacketOut port pkt :: evs => (port, pkt) :: sentOut evs
  | _ :: evs => sentOut evs

theorem map_snd_sentOut (evs : List DeviceEvent) : (sentOut evs).map Prod.snd = sentPackets evs := by
  induction evs with
  | nil => rfl
  | cons e evs ih => cases e <;> simp only [sentOut, sentPackets, List.map_cons, ih]

/-- Erasing the `i`-th element of a list takes it out of a sum over the list. -/
theorem sum_map_eraseIdx {α M : Type} [AddCommMonoid M] (f : α → M) {l : List α} {i : Nat} {a : α}
    (h : l[i]? = some a) : ((l.eraseIdx i).map f).sum + f a = (l.map f).sum := by
  induction l generalizing i with
  | nil => cases h
  | cons b l ih =>
    cases i with
    | zero =>
      simp only [List.getElem?_cons_zero, Option.some.injEq] at h
      subst h
      exact add_comm _ _
    | succ i =>
      rw [List.getElem?_cons_succ] at h
      simp only [List.eraseIdx_cons_succ, List.map_cons, List.sum_cons, add_assoc, ih h]

/-- Splitting a list by a test splits a sum over it. -/
theorem sum_map_filter_add_not {α M : Type} [AddCommMonoid M] (f : α → M) (p : α → Bool) (l : List α) :
    ((l.filter p).map f).sum + ((l.filter fun a => !p a).map f).sum = (l.map f).sum := by
  rw [← List.sum_append, ← List.map_append]
  exact ((List.filter_append_perm p l).map f).sum_eq

/-! ### Counting packets -/

/-- A way to count packets, with what a device's `DeviceStats` count of the
    packets it takes off the network: those delivered locally and those that
    failed to match. -/
structure Tally where
  weight : DevicePacket → UInt64
  consumed : DeviceStats → UInt64

/-- Packets, by `packets_for_localhost` and `packets_failed_to_match`. -/
def Tally.packets : Tally :=
  ⟨fun _ => 1, fun s => s.packetsForLocalhost + s.packetsFailedToMatch⟩

/-- Bytes, by `bytes_for_localhost` and `bytes_failed_to_match`. -/
def Tally.bytes : Tally :=
  ⟨fun p => p.packet.sizeBytes.toUInt64, fun s => s.bytesForLocalhost + s.bytesFailedToMatch⟩

/-- A list of packets, counted as a `uint64_t` counter counts them. -/
def Tally.total (t : Tally) (l : List DevicePacket) : UInt64 := (l.map t.weight).sum

@[simp] theorem Tally.total_nil (t : Tally) : t.total [] = 0 := rfl

@[simp] theorem Tally.total_cons (t : Tally) (p : DevicePacket) (l : List DevicePacket) :
    t.total (p :: l) = t.weight p + t.total l := List.sum_cons

@[simp] theorem Tally.total_append (t : Tally) (l l' : List DevicePacket) :
    t.total (l ++ l') = t.total l + t.total l' := by
  simp only [Tally.total, List.map_append, List.sum_append]

section Headers

variable (hdr : Headers)

/-- `t` accounts for one call of `HandlePacketFromPort`: the packet given is
    either taken off the network by the device or sent out of a port. -/
def Tally.Accounted (t : Tally) : Prop :=
  ∀ {d d' : Device} {port : Port} {pkt : DevicePacket} {sampled : Bool} {evs : List DeviceEvent},
    d.handlePacketFromPort hdr port pkt sampled = some (d', evs) →
    t.weight pkt = (t.consumed d'.stats_ - t.consumed d.stats_) + t.total (sentPackets evs)

theorem Tally.packets_accounted : Tally.packets.Accounted hdr := by
  intro d d' _ pkt _ evs h
  obtain ⟨hseen, -, hsplit, -⟩ := Device.handlePacketFromPort_stats hdr h
  calc (1 : UInt64) = d'.stats_.packetsSeen - d.stats_.packetsSeen := by rw [hseen]; abel
    _ = _ := by rw [hsplit]; simp only [Tally.packets, Tally.total, sentCount]; abel

theorem Tally.bytes_accounted : Tally.bytes.Accounted hdr := by
  intro d d' _ pkt _ evs h
  obtain ⟨-, hseen, -, hsplit⟩ := Device.handlePacketFromPort_stats hdr h
  calc pkt.packet.sizeBytes.toUInt64 = d'.stats_.bytesSeen - d.stats_.bytesSeen := by rw [hseen]; abel
    _ = _ := by rw [hsplit]; simp only [Tally.bytes, Tally.total, sentBytes]; abel

end Headers

/-! ### The network -/

/-- The network: its devices by id (`Network::id_to_device_`), and the
    packets in flight in its links, each with the port its link starts at
    (the port `AddLink` connects to the link's queue), by device id and port
    number. -/
structure Net where
  devices : AList (fun _ : String => Device)
  inFlight : List ((String × DevicePortNumber) × DevicePacket)

/-- The packets in flight. -/
def Net.packets (n : Net) : List DevicePacket := n.inFlight.map Prod.snd

/-- What the devices of the network have taken off it, counted by `t`. -/
def Net.consumed (t : Tally) (n : Net) : UInt64 :=
  (n.devices.entries.map fun e => t.consumed e.2.stats_).sum

/-- The hops the packets in flight can still make: a packet with TTL `t` is
    delivered or dropped at most `t + 1` more times. -/
def Net.hopBudget (n : Net) : Nat := (n.packets.map fun p => p.ttl + 1).sum

/-- Taking the `i`-th packet out of flight takes it out of a sum over the
    packets in flight. -/
theorem Net.sum_packets_eraseIdx {M : Type} [AddCommMonoid M] (f : DevicePacket → M) {n : Net} {i : Nat}
    {src : String × DevicePortNumber} {pkt : DevicePacket} (h : n.inFlight[i]? = some (src, pkt)) :
    (List.map f ({ n with inFlight := n.inFlight.eraseIdx i } : Net).packets).sum + f pkt =
      (n.packets.map f).sum := by
  simpa only [Net.packets, List.map_map] using sum_map_eraseIdx (f ∘ Prod.snd) h

/-- The packets in flight take no part in what the devices count. -/
@[simp] theorem Net.consumed_mk_devices (t : Tally) (n : Net) (l : List ((String × DevicePortNumber) × DevicePacket)) :
    Net.consumed t ⟨n.devices, l⟩ = Net.consumed t n := rfl

/-- What one step of the network can do next. -/
inductive NetStep where
  /-- A packet from outside the modelled links (an endpoint, a link not
      modelled) arrives at the port numbered `port` of device `id`. -/
  | inject (id : String) (port : DevicePortNumber) (pkt : DevicePacket) (sampled : Bool)
  /-- The pipe of a link hands the `i`-th packet in flight to the port at its
      far end. -/
  | deliver (i : Nat) (sampled : Bool)
  /-- The queue of a link drops the `i`-th packet in flight. -/
  | drop (i : Nat)

/-- The packets a step brings into the network. -/
def NetStep.injected : NetStep → List DevicePacket
  | .inject _ _ pkt _ => [pkt]
  | _ => []

/-- Whether a step is a hop: a link delivers or drops a packet. -/
def NetStep.isHop : NetStep → Bool
  | .inject .. => false
  | _ => true

section Links

variable (hdr : Headers) (wire : String × DevicePortNumber → Option (String × DevicePortNumber))

/-- `Port::HandlePacket` at the port numbered `portNum` of device `id`: the
    device's `HandlePacketFromPort`, after which each packet the device sends
    out of a port that `wire` leads somewhere goes into that link, and the
    others leave the network; those are returned. -/
def Net.arrive (n : Net) (id : String) (portNum : DevicePortNumber) (pkt : DevicePacket) (sampled : Bool) :
    Option (Net × List DevicePacket) := do
  let d ← n.devices.lookup id
  let port ← d.portNumberToPort_.lookup portNum
  let (d', evs) ← d.handlePacketFromPort hdr port pkt sampled
  some (⟨n.devices.insert id d',
      n.inFlight ++ ((sentOut evs).filter fun o => (wire (id, o.1)).isSome).map fun o => ((id, o.1), o.2)⟩,
    ((sentOut evs).filter fun o => (wire (id, o.1)).isNone).map Prod.snd)

/-- One step of the network; it returns the packets that left the network
    and those a queue dropped. -/
def Net.step (n : Net) : NetStep → Option (Net × List DevicePacket × List DevicePacket)
  | .inject id port pkt sampled => do
    let (n', left) ← n.arrive hdr wire id port pkt sampled
    some (n', left, [])
  | .deliver i sampled => do
    let (src, pkt) ← n.inFlight[i]?
    let (id, port) ← wire src
    let (n', left) ← ({ n with inFlight := n.inFlight.eraseIdx i } : Net).arrive hdr wire id port pkt sampled
    some (n', left, [])
  | .drop i => do
    let (_, pkt) ← n.inFlight[i]?
    some ({ n with inFlight := n.inFlight.eraseIdx i }, [], [pkt])

/-- A run of steps; it aborts with the first step that does. -/
def Net.run (n : Net) : List NetStep → Option (Net × List DevicePacket × List DevicePacket)
  | [] => some (n, [], [])
  | s :: steps => do
    let (n₁, left₁, dropped₁) ← n.step hdr wire s
    let (n₂, left₂, dropped₂) ← n₁.run steps
    some (n₂, left₁ ++ left₂, dropped₁ ++ dropped₂)

variable {n n' : Net} {id : String} {portNum : DevicePortNumber} {pkt : DevicePacket} {sampled : Bool}
  {left dropped : List DevicePacket}

/-- What an arrival does: one call of `HandlePacketFromPort` at a port that
    exists, whose sends out of linked ports join the packets in flight. -/
theorem Net.arrive_eq_some (h : n.arrive hdr wire id portNum pkt sampled = some (n', left)) :
    ∃ d port d' evs, n.devices.lookup id = some d ∧ d.portNumberToPort_.lookup portNum = some port ∧
      d.handlePacketFromPort hdr port pkt sampled = some (d', evs) ∧
      n'.devices = n.devices.insert id d' ∧
      n'.packets = n.packets ++ ((sentOut evs).filter fun o => (wire (id, o.1)).isSome).map Prod.snd ∧
      left = ((sentOut evs).filter fun o => (wire (id, o.1)).isNone).map Prod.snd := by
  obtain ⟨d, hd, h⟩ := Option.bind_eq_some.1 h
  obtain ⟨port, hport, h⟩ := Option.bind_eq_some.1 h
  obtain ⟨⟨d', evs⟩, hcall, h⟩ := Option.bind_eq_some.1 h
  cases h
  exact ⟨d, port, d', evs, hd, hport, hcall, rfl, by simp [Net.packets], rfl⟩

theorem Net.step_inject {id : String} {port : DevicePortNumber}
    (h : n.step hdr wire (.inject id port pkt sampled) = some (n', left, dropped)) :
    n.arrive hdr wire id port pkt sampled = some (n', left) ∧ dropped = [] := by
  obtain ⟨⟨n₁, left₁⟩, h₁, h⟩ := Option.bind_eq_some.1 h
  cases h
  exact ⟨h₁, rfl⟩

theorem Net.step_deliver {i : Nat}
    (h : n.step hdr wire (.deliver i sampled) = some (n', left, dropped)) :
    ∃ src pkt id port, n.inFlight[i]? = some (src, pkt) ∧ wire src = some (id, port) ∧
      ({ n with inFlight := n.inFlight.eraseIdx i } : Net).arrive hdr wire id port pkt sampled =
        some (n', left) ∧ dropped = [] := by
  obtain ⟨⟨src, pkt⟩, hget, h⟩ := Option.bind_eq_some.1 h
  obtain ⟨⟨id, port⟩, hlink, h⟩ := Option.bind_eq_some.1 h
  obtain ⟨⟨n₁, left₁⟩, h₁, h⟩ := Option.bind_eq_some.1 h
  cases h
  exact ⟨src, pkt, id, port, hget, hlink, h₁, rfl⟩

theorem Net.step_drop {i : Nat} (h : n.step hdr wire (.drop i) = some (n', left, dropped)) :
    ∃ src pkt, n.inFlight[i]? = some (src, pkt) ∧ n' = { n with inFlight := n.inFlight.eraseIdx i } ∧
      left = [] ∧ dropped = [pkt] := by
  obtain ⟨⟨src, pkt⟩, hget, h⟩ := Option.bind_eq_some.1 h
  cases h
  exact ⟨src, pkt, hget, rfl, rfl, rfl⟩

theorem Net.run_cons {s : NetStep} {steps : List NetStep}
    (h : n.run hdr wire (s :: steps) = some (n', left, dropped)) :
    ∃ n₁ left₁ dropped₁ left₂ dropped₂, n.step hdr wire s = some (n₁, left₁, dropped₁) ∧
      n₁.run hdr wire steps = some (n', left₂, dropped₂) ∧ left = left₁ ++ left₂ ∧
      dropped = dropped₁ ++ dropped₂ := by
  obtain ⟨⟨n₁, left₁, dropped₁⟩, h₁, h⟩ := Option.bind_eq_some.1 h
  obtain ⟨⟨n₂, left₂, dropped₂⟩, h₂, h⟩ := Option.bind_eq_some.1 h
  cases h
  exact ⟨n₁, left₁, dropped₁, left₂, dropped₂, h₁, h₂, rfl, rfl⟩

/-! ### Conservation -/

section Tally

variable {t : Tally}

/-- An arrival takes the packet off the network, or sends it on: into a link,
    or out of the network. -/
theorem Net.arrive_balanced (ht : t.Accounted hdr)
    (h : n.arrive hdr wire id portNum pkt sampled = some (n', left)) :
    t.weight pkt + t.total n.packets = (n'.consumed t - n.consumed t) + t.total left + t.total n'.packets := by
  obtain ⟨d, _, d', evs, hd, _, hcall, hdevs, hpkts, rfl⟩ := Net.arrive_eq_some hdr wire h
  have hconsumed : n'.consumed t - n.consumed t = t.consumed d'.stats_ - t.consumed d.stats_ := by
    rw [sub_eq_sub_iff_add_eq_add, Net.consumed, Net.consumed, hdevs,
      sum_entries_insert (fun d : Device => t.consumed d.stats_) hd, add_comm (t.consumed d'.stats_)]
  have hsent : t.total (sentPackets evs) =
      t.total (((sentOut evs).filter fun o => (wire (id, o.1)).isSome).map Prod.snd) +
      t.total (((sentOut evs).filter fun o => (wire (id, o.1)).isNone).map Prod.snd) := by
    rw [← map_snd_sentOut, Tally.total, Tally.total, Tally.total, List.map_map, List.map_map, List.map_map,
      ← sum_map_filter_add_not _ (fun o => (wire (id, o.1)).isSome)]
    congr 4
    funext o
    cases wire (id, o.1) <;> rfl
  rw [ht hcall, hpkts, Tally.total_append, hconsumed, hsent]
  abel

/-- One step keeps the balance of what entered the network and what became
    of it. -/
theorem Net.step_balanced (ht : t.Accounted hdr) {s : NetStep}
    (h : n.step hdr wire s = some (n', left, dropped)) :
    t.total s.injected + t.total n.packets =
      (n'.consumed t - n.consumed t) + t.total dropped + t.total left + t.total n'.packets := by
  cases s with
  | inject id port pkt sampled =>
    obtain ⟨harrive, rfl⟩ := Net.step_inject hdr wire h
    simp only [NetStep.injected, Tally.total_cons, Tally.total_nil, add_zero]
    exact Net.arrive_balanced hdr wire ht harrive
  | deliver i sampled =>
    obtain ⟨src, pkt, id, port, hget, -, harrive, rfl⟩ := Net.step_deliver hdr wire h
    have hb := Net.arrive_balanced hdr wire ht harrive
    simp only [NetStep.injected, Tally.total_nil, zero_add, add_zero, Net.consumed_mk_devices] at hb ⊢
    rw [Tally.total, ← Net.sum_packets_eraseIdx t.weight hget, add_comm]
    exact hb
  | drop i =>
    obtain ⟨src, pkt, hget, rfl, rfl, rfl⟩ := Net.step_drop hdr wire h
    simp only [NetStep.injected, Tally.total_cons, Tally.total_nil, Net.consumed_mk_devices, sub_self,
      zero_add, add_zero]
    rw [Tally.total, ← Net.sum_packets_eraseIdx t.weight hget, add_comm]
    rfl

/-- Two balanced stretches of a run make a balanced run. -/
theorem balance_chain {G : Type} [AddCommGroup G] {i₁ i₂ f₀ f₁ f₂ c₀ c₁ c₂ d₁ d₂ l₁ l₂ : G}
    (h₁ : i₁ + f₀ = (c₁ - c₀) + d₁ + l₁ + f₁) (h₂ : i₂ + f₁ = (c₂ - c₁) + d₂ + l₂ + f₂) :
    (i₁ + i₂) + f₀ = (c₂ - c₀) + (d₁ + d₂) + (l₁ + l₂) + f₂ := by
  apply add_right_cancel (b := f₁)
  calc (i₁ + i₂) + f₀ + f₁ = (i₁ + f₀) + (i₂ + f₁) := by abel
    _ = _ := by rw [h₁, h₂]; abel

theorem Net.run_balanced (ht : t.Accounted hdr) {steps : List NetStep}
    (h : n.run hdr wire steps = some (n', left, dropped)) :
    t.total (steps.flatMap NetStep.injected) + t.total n.packets =
      (n'.consumed t - n.consumed t) + t.total dropped + t.total left + t.total n'.packets := by
  induction steps generalizing n left dropped with
  | nil =>
    cases h
    simp
  | cons s steps ih =>
    obtain ⟨n₁, left₁, dropped₁, left₂, dropped₂, h₁, h₂, rfl, rfl⟩ := Net.run_cons hdr wire h
    simp only [List.flatMap_cons, Tally.total_append]
    exact balance_chain (Net.step_balanced hdr wire ht h₁) (ih h₂)

end Tally

/-- `exampleDevice` with its port `1` too, where packets come in. -/
def ingressDevice : Device :=
  { exampleDevice with portNumberToPort_ := exampleDevice.portNumberToPort_.insert ⟨1⟩ (Port.new ⟨1⟩) }

/-- A device at address `2`, the destination of `exampleFiveTuple`, with a
    port `1`. -/
def egressDevice : Device :=
  { Device.new "e" 2 with portNumberToPort_ := (∅ : AList fun _ : DevicePortNumber => Port).insert ⟨1⟩ (Port.new ⟨1⟩) }

/-- The two devices, with nothing in flight. -/
def exampleNet : Net :=
  ⟨((∅ : AList fun _ : String => Device).insert "d" ingressDevice).insert "e" egressDevice, []⟩

/-- One link, from port `2` of `ingressDevice` to port `1` of `egressDevice`. -/
def exampleWire (src : String × DevicePortNumber) : Option (String × DevicePortNumber) :=
  if src = ("d", ⟨2⟩) then some ("e", ⟨1⟩) else none

/-- `forwardRule` installed at `ingressDevice`, then two packets it forwards
    into the link: the link delivers the first, for which `egressDevice`
    creates a sink, and drops the second. -/
def exampleSteps : List NetStep :=
  [.inject "d" ⟨1⟩ (sscpInstall (forwardRule [exampleFiveTuple])).pkt false,
    .inject "d" ⟨1⟩ forwardedArrival.pkt false, .inject "d" ⟨1⟩ forwardedArrival.pkt false,
    .deliver 0 false, .drop 0]

/-- Over any run that does not abort, every packet that entered the network
    (injected, or in flight at the start) is accounted for once: taken off
    by a device, dropped by a queue, left the network, or still in flight;
    in packets and in bytes, modulo `2^64`. -/
theorem Net.run_conserves {steps : List NetStep} (h : n.run hdr wire steps = some (n', left, dropped)) :
    ∀ t ∈ [Tally.packets, Tally.bytes],
      t.total (steps.flatMap NetStep.injected) + t.total n.packets =
        (n'.consumed t - n.consumed t) + t.total dropped + t.total left + t.total n'.packets := by
  simp only [List.mem_cons, List.mem_singleton, List.not_mem_nil, or_false, forall_eq_or_imp, forall_eq]
  exact ⟨Net.run_balanced hdr wire (Tally.packets_accounted hdr) h,
    Net.run_balanced hdr wire (Tally.bytes_accounted hdr) h⟩

theorem run_conserves_install_deliver_drop :
    ∃ n' left dropped, exampleNet.run exampleHeaders exampleWire exampleSteps = some (n', left, dropped) ∧
      ∀ t ∈ [Tally.packets, Tally.bytes],
        t.total (exampleSteps.flatMap NetStep.injected) + t.total exampleNet.packets =
          (n'.consumed t - exampleNet.consumed t) + t.total dropped + t.total left + t.total n'.packets := by
  obtain ⟨n', left, dropped, h⟩ : ∃ n' left dropped,
      exampleNet.run exampleHeaders exampleWire exampleSteps = some (n', left, dropped) := ⟨_, _, _, rfl⟩
  exact ⟨n', left, dropped, h, Net.run_conserves exampleHeaders exampleWire h⟩

/-- The devices take the message and the delivered packet off the network,
    and the link drops the other packet. -/
example : (exampleNet.run exampleHeaders exampleWire exampleSteps).map
    (fun r => (r.1.consumed Tally.packets, r.1.consumed Tally.bytes, r.2.1.length, r.2.2.length,
      r.1.packets.length)) = some (2, 100, 0, 1, 0) := by decide

/-! ### Hops -/

/-- An arrival puts at most the packet itself, one hop older, into flight. -/
theorem Net.hopBudget_arrive (h : n.arrive hdr wire id portNum pkt sampled = some (n', left)) :
    n'.hopBudget ≤ n.hopBudget + pkt.ttl := by
  obtain ⟨d, _, d', evs, -, _, hcall, -, hpkts, -⟩ := Net.arrive_eq_some hdr wire h
  have hlinked : ((((sentOut evs).filter fun o => (wire (id, o.1)).isSome).map Prod.snd).map
      fun p => p.ttl + 1).sum ≤ ((sentPackets evs).map fun p => p.ttl + 1).sum := by
    rw [← map_snd_sentOut]
    exact (((List.filter_sublist _).map _).map _).sum_le_sum fun _ _ => Nat.zero_le _
  have hsent : ((sentPackets evs).map fun p => p.ttl + 1).sum ≤ pkt.ttl := by
    rcases Device.sentPackets_handlePacketFromPort hdr hcall with hnil | ⟨p, hp, httl, -⟩
    · simp [hnil]
    · simp [hp, httl]
  rw [Net.hopBudget, hpkts, List.map_append, List.sum_append]
  exact Nat.add_le_add_left (hlinked.trans hsent) _

/-- A hop uses up at least one unit of the budget; an injection adds at most
    the TTL of the packet injected. -/
theorem Net.hopBudget_step {s : NetStep} (h : n.step hdr wire s = some (n', left, dropped)) :
    n'.hopBudget + (if s.isHop then 1 else 0) ≤ n.hopBudget + (s.injected.map DevicePacket.ttl).sum := by
  cases s with
  | inject id port pkt sampled =>
    simpa only [NetStep.isHop, NetStep.injected, List.map_cons, List.map_nil, List.sum_cons, List.sum_nil,
      add_zero, Bool.false_eq_true, ↓reduceIte] using
      Net.hopBudget_arrive hdr wire (Net.step_inject hdr wire h).1
  | deliver i sampled =>
    obtain ⟨src, pkt, id, port, hget, -, harrive, -⟩ := Net.step_deliver hdr wire h
    have herase := Net.sum_packets_eraseIdx (fun p => p.ttl + 1) hget
    have := Net.hopBudget_arrive hdr wire harrive
    simp only [Net.hopBudget, NetStep.isHop, NetStep.injected, ↓reduceIte, List.map_nil, List.sum_nil]
      at this herase ⊢
    omega
  | drop i =>
    obtain ⟨src, pkt, hget, rfl, -, -⟩ := Net.step_drop hdr wire h
    have herase := Net.sum_packets_eraseIdx (fun p => p.ttl + 1) hget
    simp only [Net.hopBudget, NetStep.isHop, NetStep.injected, ↓reduceIte, List.map_nil, List.sum_nil]
      at herase ⊢
    omega

/-- Whatever the schedule, a run makes at most as many hops (deliveries and
    drops) as the TTLs of the packets in flight at the start and of those
    injected allow: each hop lowers the TTL of the packet that makes it. -/
theorem Net.run_hops_le {steps : List NetStep} (h : n.run hdr wire steps = some (n', left, dropped)) :
    steps.countP NetStep.isHop + n'.hopBudget ≤
      n.hopBudget + ((steps.flatMap NetStep.injected).map DevicePacket.ttl).sum := by
  induction steps generalizing n left dropped with
  | nil =>
    cases h
    simp
  | cons s steps ih =>
    obtain ⟨n₁, left₁, dropped₁, left₂, dropped₂, h₁, h₂, -, -⟩ := Net.run_cons hdr wire h
    have hstep := Net.hopBudget_step hdr wire h₁
    have hrest := ih h₂
    simp only [List.countP_cons, List.flatMap_cons, List.map_append, List.sum_append] at hrest ⊢
    omega

theorem run_hops_le_install_deliver_drop :
    ∃ n' left dropped, exampleNet.run exampleHeaders exampleWire exampleSteps = some (n', left, dropped) ∧
      exampleSteps.countP NetStep.isHop + n'.hopBudget ≤
        exampleNet.hopBudget + ((exampleSteps.flatMap NetStep.injected).map DevicePacket.ttl).sum := by
  obtain ⟨n', left, dropped, h⟩ : ∃ n' left dropped,
      exampleNet.run exampleHeaders exampleWire exampleSteps = some (n', left, dropped) := ⟨_, _, _, rfl⟩
  exact ⟨n', left, dropped, h, Net.run_hops_le exampleHeaders exampleWire h⟩

end Links

end NcodeCommon.Htsim
