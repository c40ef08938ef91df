import NcodeCommon.Htsim.Forwarding

/-!
# Building the network

`Network::AddDevice` registers a device under its id, and `Network::AddLink`
wires the port `src_port_num` of one device, through a queue and a pipe, to
the port `dst_port_num` of another: it resolves both ports with
`FindOrCreatePort`, marks both `internal` as asked, and connects the source
port to the queue, the queue to the pipe and the pipe to the destination
port.  `Port::Connect` refuses (a `CHECK`) to give a port a second handler,
as `AddInternalExternalObserver` and `AddExternalInternalObserver` refuse to
replace an observer; `Port::Reconnect` replaces a handler that is there.

A packet a device sends out of a port then meets the chain port → queue →
pipe → port (`Network.wire`), which is the wiring `Net.step` forwards along.
Over every sequence of builder calls that does not abort, every link leads
from a connected port of a registered device to a port of a registered
device (`Network.Sound`).  Forwarding keeps this, since a device never loses
a port; so on a network built this way, whatever the schedule, a packet in
flight always has a port waiting at the far end of its link, and its
delivery fails only when the device there aborts (`build_forward_progress`).

The network is built before the packets flow, as htsim's simulations do;
handler, queue and pipe identities are numbers.
-/

namespace NcodeCommon.Htsim

/-! ### Ports and devices -/

/-- `Port::Connect(out_handler)`, with the identity of the handler the port
    holds (`none` for `nullptr`): connecting the handler it holds changes
    nothing, and a port with another handler fails the `CHECK`. -/
def Port.connect (port : Port) (current : Option Nat) (outHandler : Nat) : Option Port :=
  if current = some outHandler then some port
  else if current = none then some { port with outHandler_ := true }
  else none

/-- `Port::Reconnect(out_handler)`: the `CHECK` that the port has a handler,
    which the caller then replaces. -/
def Port.reconnect (port : Port) (current : Option Nat) : Option Port :=
  if current.isSome then some port else none

/-- `Port::set_internal` (declared in `network.h`). -/
def Port.setInternal (port : Port) (internal : Bool) : Port := { port with internal_ := internal }

/-- The device with the port numbered `num` written back: ports are held by
    pointer, so what a `Port` method does shows in the device's table. -/
def Device.setPort (d : Device) (num : DevicePortNumber) (port : Port) : Device :=
  { d with portNumberToPort_ := d.portNumberToPort_.insert num port }

/-- `AddInternalExternalObserver` (`internalToExternal`) and
    `AddExternalInternalObserver`, with the identity of the observer the
    device holds: the `CHECK`s allow setting an observer only where there is
    none or where it is the same one. -/
def Device.addObserver (d : Device) (internalToExternal : Bool) (current : Option Nat) (observer : Nat) :
    Option Device :=
  if current = none ∨ current = some observer then
    some (if internalToExternal then { d with internalExternalObserver_ := true }
      else { d with externalInternalObserver_ := true })
  else none

/-- `DeviceInterface::AddInternalExternalObserver(observer)`. -/
def Device.addInternalExternalObserver (d : Device) (current : Option Nat) (observer : Nat) : Option Device :=
  d.addObserver true current observer

/-- `DeviceInterface::AddExternalInternalObserver(observer)`. -/
def Device.addExternalInternalObserver (d : Device) (current : Option Nat) (observer : Nat) : Option Device :=
  d.addObserver false current observer

/-- `DeviceInterface::NextAvailablePort()`: a new port under the first number
    in `1 .. 2^32 - 2` that no port has (the loop stops below
    `DevicePortNumber::Max()`); `LOG(FATAL)` when every one is taken. -/
def Device.nextAvailablePort (d : Device) : Option (Device × Port) :=
  ((List.range' 1 (kLoopbackPortNum.raw.toNat - 1)).find? fun i =>
      (⟨i.toUInt32⟩ : DevicePortNumber) ∉ d.portNumberToPort_).map fun i =>
    ({ d with portNumberToPort_ := emplace d.portNumberToPort_ ⟨i.toUInt32⟩ (Port.new ⟨i.toUInt32⟩) },
      Port.new ⟨i.toUInt32⟩)

theorem Port.connect_eq_some {port port' : Port} {current : Option Nat} {outHandler : Nat} :
    port.connect current outHandler = some port' ↔
      (current = some outHandler ∧ port' = port) ∨
      (current = none ∧ port' = { port with outHandler_ := true }) := by
  unfold Port.connect
  split_ifs with h₁ h₂
  · simp [h₁, eq_comm]
  · simp [h₂, eq_comm]
  · simp [h₁, h₂]

/-- `NextAvailablePort` adds one port, under a number no port had. -/
theorem Device.nextAvailablePort_eq_some {d d' : Device} {port : Port}
    (h : d.nextAvailablePort = some (d', port)) :
    port.number_ ∉ d.portNumberToPort_ ∧
      d' = { d with portNumberToPort_ := d.portNumberToPort_.insert port.number_ port } := by
  obtain ⟨i, hi, h⟩ := Option.map_eq_some'.1 h
  cases h
  have hfree := List.find?_some hi
  simp only [decide_eq_true_eq] at hfree
  exact ⟨hfree, by rw [emplace, if_neg hfree]; rfl⟩

/-! ### Ports that stay -/

/-- `d'` has every port of `d`, and every port of `d` with a handler still
    has one. -/
def Device.PortsGrow (d d' : Device) : Prop :=
  ∀ num port, d.portNumberToPort_.lookup num = some port →
    ∃ port', d'.portNumberToPort_.lookup num = some port' ∧ (port.outHandler_ = true → port'.outHandler_ = true)

theorem Device.PortsGrow.refl (d : Device) : d.PortsGrow d := fun _ port h => ⟨port, h, id⟩

theorem Device.PortsGrow.trans {d₁ d₂ d₃ : Device} (h₁ : d₁.PortsGrow d₂) (h₂ : d₂.PortsGrow d₃) :
    d₁.PortsGrow d₃ := fun num port h => by
  obtain ⟨port₂, hp₂, hc₂⟩ := h₁ num port h
  obtain ⟨port₃, hp₃, hc₃⟩ := h₂ num port₂ hp₂
  exact ⟨port₃, hp₃, hc₃ ∘ hc₂⟩

theorem Device.portsGrow_of_lookup {d d' : Device}
    (h : ∀ num port, d.portNumberToPort_.lookup num = some port → d'.portNumberToPort_.lookup num = some port) :
    d.PortsGrow d' := fun num port hp => ⟨port, h num port hp, id⟩

/-- Writing a port keeps the others, and keeps a handler the port had. -/
theorem Device.portsGrow_setPort {d : Device} {num : DevicePortNumber} {port' : Port}
    (h : ∀ port, d.portNumberToPort_.lookup num = some port → port.outHandler_ = true → port'.outHandler_ = true) :
    d.PortsGrow (d.setPort num port') := by
  intro num' port hp
  by_cases hn : num' = num
  · subst hn
    exact ⟨port', AList.lookup_insert _, h port hp⟩
  · exact ⟨port, (AList.lookup_insert_ne hn).trans hp, id⟩

/-- Adding a port under a number no port has keeps the others. -/
theorem Device.portsGrow_setPort_of_not_mem {d : Device} {num : DevicePortNumber} {port' : Port}
    (h : num ∉ d.portNumberToPort_) : d.PortsGrow (d.setPort num port') :=
  Device.portsGrow_setPort fun _ hp => absurd (AList.lookup_isSome.1 (by rw [hp]; rfl)) h

theorem Device.findOrCreatePort_lookup {d : Device} {num num' : DevicePortNumber} {port : Port}
    (h : d.portNumberToPort_.lookup num = some port) :
    (d.findOrCreatePort num').1.portNumberToPort_.lookup num = some port := by
  unfold Device.findOrCreatePort
  split
  · exact h
  · rename_i hnone
    rw [AList.lookup_insert_ne fun he => by rw [he, hnone] at h; cases h]
    exact h

theorem Device.findOrCreatePort_snd {d : Device} {num : DevicePortNumber} {port : Port}
    (h : d.portNumberToPort_.lookup num = some port) : (d.findOrCreatePort num).2 = port := by
  simp only [Device.findOrCreatePort, h]

/-- The port `FindOrCreatePort` returns is the device's port of that number. -/
theorem Device.findOrCreatePort_lookup_self (d : Device) (num : DevicePortNumber) :
    (d.findOrCreatePort num).1.portNumberToPort_.lookup num = some (d.findOrCreatePort num).2 := by
  unfold Device.findOrCreatePort
  split
  · assumption
  · exact AList.lookup_insert _

/-- `FindOrCreatePort` then writing the port back with at least its handler. -/
theorem Device.portsGrow_findOrCreatePort_setPort (d : Device) (num : DevicePortNumber) (port' : Port)
    (h : (d.findOrCreatePort num).2.outHandler_ = true → port'.outHandler_ = true) :
    d.PortsGrow ((d.findOrCreatePort num).1.setPort num port') :=
  (Device.portsGrow_of_lookup fun _ _ => Device.findOrCreatePort_lookup).trans
    (Device.portsGrow_setPort fun port hp => by
      rw [Device.findOrCreatePort_lookup_self, Option.some.injEq] at hp
      subst hp
      exact h)

section Headers

variable (hdr : Headers)

/-- Local delivery keeps every port: it may only add the loopback port. -/
theorem Device.handlePacket_ports {d d' : Device} {pkt : DevicePacket} {evs : List DeviceEvent}
    (h : d.handlePacket hdr pkt = some (d', evs)) {num : DevicePortNumber} {port : Port}
    (hp : d.portNumberToPort_.lookup num = some port) : d'.portNumberToPort_.lookup num = some port := by
  by_cases hsize : pkt.packet.sizeBytes = 0
  · obtain ⟨-, -, ⟨r, hd'⟩, -⟩ := Device.handlePacket_control hdr hsize h
    rw [hd']
    exact hp
  · unfold Device.handlePacket at h
    rw [if_neg hsize] at h
    dsimp only at h
    split at h
    · cases h
      exact hp
    · obtain ⟨kind, -, h⟩ := Option.bind_eq_some.1 h
      cases h
      exact Device.findOrCreatePort_lookup hp

/-- `HandlePacketFromPort` keeps every port. -/
theorem Device.handlePacketFromPort_ports {d d' : Device} {inputPort : Port} {pkt : DevicePacket}
    {sampled : Bool} {evs : List DeviceEvent}
    (h : d.handlePacketFromPort hdr inputPort pkt sampled = some (d', evs)) : d.PortsGrow d' := by
  refine Device.portsGrow_of_lookup fun num port hp => ?_
  rcases Device.handlePacketFromPort_eq_some hdr h with ⟨-, hh⟩ | ⟨-, -, hd', -⟩ | ⟨-, _, _, -, hd', -⟩
  · exact Device.handlePacket_ports hdr hh hp
  all_goals rw [hd']; exact hp

end Headers

/-! ### Devices that stay -/

/-- Every device of `devices` is in `devices'`, with its ports grown. -/
def DevicesGrow (devices devices' : AList (fun _ : String => Device)) : Prop :=
  ∀ id d, devices.lookup id = some d → ∃ d', devices'.lookup id = some d' ∧ d.PortsGrow d'

theorem DevicesGrow.refl (devices : AList (fun _ : String => Device)) : DevicesGrow devices devices :=
  fun _ d h => ⟨d, h, Device.PortsGrow.refl d⟩

theorem DevicesGrow.trans {devices₁ devices₂ devices₃ : AList (fun _ : String => Device)}
    (h₁ : DevicesGrow devices₁ devices₂) (h₂ : DevicesGrow devices₂ devices₃) : DevicesGrow devices₁ devices₃ :=
  fun id d h => by
    obtain ⟨d₂, hd₂, hg₂⟩ := h₁ id d h
    obtain ⟨d₃, hd₃, hg₃⟩ := h₂ id d₂ hd₂
    exact ⟨d₃, hd₃, hg₂.trans hg₃⟩

theorem devicesGrow_insert {devices : AList (fun _ : String => Device)} {id : String} {d' : Device}
    (h : ∀ d, devices.lookup id = some d → d.PortsGrow d') : DevicesGrow devices (devices.insert id d') := by
  intro id₀ d₀ h₀
  by_cases hid : id₀ = id
  · subst hid
    exact ⟨d', AList.lookup_insert _, h d₀ h₀⟩
  · exact ⟨d₀, (AList.lookup_insert_ne hid).trans h₀, Device.PortsGrow.refl d₀⟩

/-- Writing back a registered device with its ports grown. -/
theorem devicesGrow_insert_of_lookup {devices : AList (fun _ : String => Device)} {id : String} {d d' : Device}
    (hd : devices.lookup id = some d) (h : d.PortsGrow d') : DevicesGrow devices (devices.insert id d') :=
  devicesGrow_insert fun _ hd₀ => Option.some.inj (hd₀.symm.trans hd) ▸ h

/-- The port `p`, by device id and port number, exists. -/
def HasPort (devices : AList (fun _ : String => Device)) (p : String × DevicePortNumber) : Prop :=
  ∃ d port, devices.lookup p.1 = some d ∧ d.portNumberToPort_.lookup p.2 = some port

/-- The port `p` exists and has a handler. -/
def HasConnectedPort (devices : AList (fun _ : String => Device)) (p : String × DevicePortNumber) : Prop :=
  ∃ d port, devices.lookup p.1 = some d ∧ d.portNumberToPort_.lookup p.2 = some port ∧ port.outHandler_ = true

theorem HasPort.mono {devices devices' : AList (fun _ : String => Device)} {p : String × DevicePortNumber}
    (hg : DevicesGrow devices devices') (h : HasPort devices p) : HasPort devices' p := by
  obtain ⟨d, port, hd, hp⟩ := h
  obtain ⟨d', hd', hgrow⟩ := hg _ d hd
  obtain ⟨port', hp', -⟩ := hgrow _ port hp
  exact ⟨d', port', hd', hp'⟩

theorem HasConnectedPort.mono {devices devices' : AList (fun _ : String => Device)}
    {p : String × DevicePortNumber} (hg : DevicesGrow devices devices') (h : HasConnectedPort devices p) :
    HasConnectedPort devices' p := by
  obtain ⟨d, port, hd, hp, hc⟩ := h
  obtain ⟨d', hd', hgrow⟩ := hg _ d hd
  obtain ⟨port', hp', hc'⟩ := hgrow _ port hp
  exact ⟨d', port', hd', hp', hc' hc⟩

/-- Every link of `wire` leads from a connected port to a port. -/
def Wired (devices : AList (fun _ : String => Device))
    (wire : String × DevicePortNumber → Option (String × DevicePortNumber)) : Prop :=
  ∀ src dst, wire src = some dst → HasConnectedPort devices src ∧ HasPort devices dst

theorem Wired.mono {devices devices' : AList (fun _ : String => Device)}
    {wire : String × DevicePortNumber → Option (String × DevicePortNumber)}
    (hg : DevicesGrow devices devices') (h : Wired devices wire) : Wired devices' wire :=
  fun src dst hw => ⟨(h src dst hw).1.mono hg, (h src dst hw).2.mono hg⟩

/-! ### The network and its builder -/

/-- `Network`: the registry `id_to_device_`, and the connections made while
    building it, by identity: the handler each port was connected to
    (`out_handler_`), the pipe each queue was connected to, the port each
    pipe was connected to, and the observers of each device (by device id
    and direction). -/
structure Network where
  idToDevice_ : AList (fun _ : String => Device)
  outHandlers : AList (fun _ : String × DevicePortNumber => Nat)
  queuePipes : AList (fun _ : Nat => Nat)
  pipePorts : AList (fun _ : Nat => String × DevicePortNumber)
  observers : AList (fun _ : String × Bool => Nat)

/-- A network with nothing registered or connected. -/
def Network.empty : Network := ⟨∅, ∅, ∅, ∅, ∅⟩

/-- Modelled from the spec: `FindDeviceOrDie(id)` (declared in `network.h`). -/
def Network.findDeviceOrDie (nw : Network) (id : String) : Option Device := nw.idToDevice_.lookup id

/-- `Network::AddDevice(device)`: `emplace` keeps a device already
    registered under the id; the device is told its network. -/
def Network.addDevice (nw : Network) (d : Device) : Network :=
  { nw with idToDevice_ := emplace nw.idToDevice_ d.id_ { d with network_ := true } }

/-- `Network::AddLink(queue, pipe, src_id, dst_id, src_port_num,
    dst_port_num, internal)`.  Modelled from the spec: `Queue::Connect` and
    `Pipe::Connect` (in `queue.h` and `pipe.h`) record the handler; had they
    refused a second one, as `Port::Connect` does, the runs below would only
    abort earlier. -/
def Network.addLink (nw : Network) (queue pipe : Nat) (srcId dstId : String)
    (srcPortNum dstPortNum : DevicePortNumber) (internal : Bool) : Option Network :=
  if srcId = dstId then none
  else do
    let src ← nw.findDeviceOrDie srcId
    let dst ← nw.findDeviceOrDie dstId
    let (src, srcPort) := src.findOrCreatePort srcPortNum
    let srcPort := srcPort.setInternal internal
    let (dst, dstPort) := dst.findOrCreatePort dstPortNum
    let dstPort := dstPort.setInternal internal
    -- Connect the queue to the pipe and the source port to the queue
    let srcPort ← srcPort.connect (nw.outHandlers.lookup (srcId, srcPortNum)) queue
    some { nw with
      idToDevice_ := (nw.idToDevice_.insert srcId (src.setPort srcPortNum srcPort)).insert dstId
        (dst.setPort dstPortNum dstPort)
      outHandlers := nw.outHandlers.insert (srcId, srcPortNum) queue
      queuePipes := nw.queuePipes.insert queue pipe
      pipePorts := nw.pipePorts.insert pipe (dstId, dstPortNum) }

/-- The calls that build a network. -/
inductive BuildCall where
  | addDevice (d : Device)
  | addLink (queue pipe : Nat) (srcId dstId : String) (srcPortNum dstPortNum : DevicePortNumber) (internal : Bool)
  /-- `Port::Connect` on a port of a registered device. -/
  | connect (id : String) (portNum : DevicePortNumber) (outHandler : Nat)
  /-- `Port::Reconnect` on a port of a registered device. -/
  | reconnect (id : String) (portNum : DevicePortNumber) (outHandler : Nat)
  | addObserver (id : String) (internalToExternal : Bool) (observer : Nat)
  | nextAvailablePort (id : String)

/-- One builder call; `none` where it aborts. -/
def Network.call (nw : Network) : BuildCall → Option Network
  | .addDevice d => some (nw.addDevice d)
  | .addLink queue pipe srcId dstId srcPortNum dstPortNum internal =>
    nw.addLink queue pipe srcId dstId srcPortNum dstPortNum internal
  | .connect id num outHandler => do
    let d ← nw.idToDevice_.lookup id
    let port ← d.portNumberToPort_.lookup num
    let port ← port.connect (nw.outHandlers.lookup (id, num)) outHandler
    some { nw with
      idToDevice_ := nw.idToDevice_.insert id (d.setPort num port)
      outHandlers := nw.outHandlers.insert (id, num) outHandler }
  | .reconnect id num outHandler => do
    let d ← nw.idToDevice_.lookup id
    let port ← d.portNumberToPort_.lookup num
    let _ ← port.reconnect (nw.outHandlers.lookup (id, num))
    some { nw with outHandlers := nw.outHandlers.insert (id, num) outHandler }
  | .addObserver id internalToExternal observer => do
    let d ← nw.idToDevice_.lookup id
    let d ← d.addObserver internalToExternal (nw.observers.lookup (id, internalToExternal)) observer
    some { nw with
      idToDevice_ := nw.idToDevice_.insert id d
      observers := nw.observers.insert (id, internalToExternal) observer }
  | .nextAvailablePort id => do
    let d ← nw.idToDevice_.lookup id
    let (d, _) ← d.nextAvailablePort
    some { nw with idToDevice_ := nw.idToDevice_.insert id d }

/-- A sequence of builder calls; it aborts with the first call that does. -/
def Network.build (nw : Network) : List BuildCall → Option Network
  | [] => some nw
  | c :: calls => (nw.call c).bind fun nw => nw.build calls

/-- Where a packet sent out of the port `src` arrives: through the queue the
    port was connected to, and the pipe the queue was connected to, at the
    port the pipe was connected to. -/
def Network.wire (nw : Network) (src : String × DevicePortNumber) : Option (String × DevicePortNumber) :=
  (nw.outHandlers.lookup src).bind fun queue => (nw.queuePipes.lookup queue).bind nw.pipePorts.lookup

/-! ### What the builder keeps -/

/-- Every port given a handler has one, and every pipe leads to a port. -/
structure Network.Sound (nw : Network) : Prop where
  connected : ∀ p h, nw.outHandlers.lookup p = some h → HasConnectedPort nw.idToDevice_ p
  landed : ∀ pipe p, nw.pipePorts.lookup pipe = some p → HasPort nw.idToDevice_ p

theorem Network.sound_empty : Network.empty.Sound :=
  ⟨fun _ _ h => (by cases h), fun _ _ h => (by cases h)⟩

theorem Network.Sound.wired {nw : Network} (hs : nw.Sound) : Wired nw.idToDevice_ nw.wire := by
  intro src dst hw
  obtain ⟨queue, hq, hw⟩ := Option.bind_eq_some.1 hw
  obtain ⟨pipe, -, hp⟩ := Option.bind_eq_some.1 hw
  exact ⟨hs.connected src queue hq, hs.landed pipe dst hp⟩

/-- A network whose devices grew keeps its connections sound, whatever else
    changed but its handlers and pipes. -/
theorem Network.Sound.of_grow {nw nw' : Network} (hs : nw.Sound) (hg : DevicesGrow nw.idToDevice_ nw'.idToDevice_)
    (ho : nw'.outHandlers = nw.outHandlers) (hp : nw'.pipePorts = nw.pipePorts) : nw'.Sound :=
  ⟨fun p h hp' => (hs.connected p h (ho ▸ hp')).mono hg, fun pipe p hp' => (hs.landed pipe p (hp ▸ hp')).mono hg⟩

/-- Recording a handler for a port that has one keeps the network sound. -/
theorem Network.Sound.setHandler {nw : Network} {devices : AList (fun _ : String => Device)}
    {p : String × DevicePortNumber} (q : Nat) (hs : nw.Sound) (hg : DevicesGrow nw.idToDevice_ devices)
    (hp : HasConnectedPort devices p) :
    ({ nw with idToDevice_ := devices, outHandlers := nw.outHandlers.insert p q } : Network).Sound := by
  refine ⟨fun p' h hp' => ?_, fun pipe p' hp' => (hs.landed pipe p' hp').mono hg⟩
  by_cases hpp : p' = p
  · subst hpp
    exact hp
  · rw [AList.lookup_insert_ne hpp] at hp'
    exact (hs.connected p' h hp').mono hg

/-- Landing a pipe on a port that exists keeps the network sound. -/
theorem Network.Sound.landPipe {nw : Network} {p : String × DevicePortNumber} (pipe : Nat)
    (queuePipes : AList (fun _ : Nat => Nat)) (hs : nw.Sound) (hp : HasPort nw.idToDevice_ p) :
    ({ nw with queuePipes := queuePipes, pipePorts := nw.pipePorts.insert pipe p } : Network).Sound := by
  refine ⟨hs.connected, fun pipe' p' hp' => ?_⟩
  by_cases hpipe : pipe' = pipe
  · subst hpipe
    rw [AList.lookup_insert, Option.some.injEq] at hp'
    exact hp' ▸ hp
  · rw [AList.lookup_insert_ne hpipe] at hp'
    exact hs.landed pipe' p' hp'

/-- `Port::Connect` on a sound network leaves the port with a handler: a
    handler recorded for the port is one the device's port already has. -/
theorem Network.Sound.connect_outHandler {nw : Network} {id : String} {num : DevicePortNumber} {d : Device}
    {port port' : Port} {q : Nat} (hs : nw.Sound) (hd : nw.idToDevice_.lookup id = some d)
    (hport : ∀ p, d.portNumberToPort_.lookup num = some p → p.outHandler_ = true → port.outHandler_ = true)
    (hconn : port.connect (nw.outHandlers.lookup (id, num)) q = some port') : port'.outHandler_ = true := by
  rcases Port.connect_eq_some.1 hconn with ⟨hq, rfl⟩ | ⟨-, rfl⟩
  · obtain ⟨d₀, p, hd₀, hp, hc⟩ := hs.connected _ _ hq
    rw [hd] at hd₀
    cases hd₀
    exact hport p hp hc
  · rfl

/-- What a completed `AddLink` does. -/
theorem Network.addLink_eq_some {nw nw' : Network} {queue pipe : Nat} {srcId dstId : String}
    {srcPortNum dstPortNum : DevicePortNumber} {internal : Bool}
    (h : nw.addLink queue pipe srcId dstId srcPortNum dstPortNum internal = some nw') :
    srcId ≠ dstId ∧ ∃ src dst srcPort, nw.idToDevice_.lookup srcId = some src ∧
      nw.idToDevice_.lookup dstId = some dst ∧
      ((src.findOrCreatePort srcPortNum).2.setInternal internal).connect
        (nw.outHandlers.lookup (srcId, srcPortNum)) queue = some srcPort ∧
      nw' = { nw with
        idToDevice_ := (nw.idToDevice_.insert srcId ((src.findOrCreatePort srcPortNum).1.setPort srcPortNum
            srcPort)).insert dstId ((dst.findOrCreatePort dstPortNum).1.setPort dstPortNum
            ((dst.findOrCreatePort dstPortNum).2.setInternal internal))
        outHandlers := nw.outHandlers.insert (srcId, srcPortNum) queue
        queuePipes := nw.queuePipes.insert queue pipe
        pipePorts := nw.pipePorts.insert pipe (dstId, dstPortNum) } := by
  unfold Network.addLink at h
  split_ifs at h with hne
  obtain ⟨src, hsrc, h⟩ := Option.bind_eq_some.1 h
  obtain ⟨dst, hdst, h⟩ := Option.bind_eq_some.1 h
  obtain ⟨srcPort, hconn, h⟩ := Option.bind_eq_some.1 h
  cases h
  exact ⟨hne, src, dst, srcPort, hsrc, hdst, hconn, rfl⟩

/-- `AddLink` keeps the network sound: the source port it connects has a
    handler, whether it had one already or `Connect` gave it one, and the
    pipe lands on the destination port it creates. -/
theorem Network.Sound.addLink {nw nw' : Network} {queue pipe : Nat} {srcId dstId : String}
    {srcPortNum dstPortNum : DevicePortNumber} {internal : Bool} (hs : nw.Sound)
    (h : nw.addLink queue pipe srcId dstId srcPortNum dstPortNum internal = some nw') :
    nw'.Sound ∧ DevicesGrow nw.idToDevice_ nw'.idToDevice_ := by
  obtain ⟨hne, src, dst, srcPort, hsrc, hdst, hconn, rfl⟩ := Network.addLink_eq_some h
  have hsrcPort : srcPort.outHandler_ = true := hs.connect_outHandler hsrc (fun p hp hc => by
    rw [Port.setInternal, Device.findOrCreatePort_snd hp]
    exact hc) hconn
  have hgrow : DevicesGrow nw.idToDevice_ _ :=
    (devicesGrow_insert_of_lookup hsrc
      (Device.portsGrow_findOrCreatePort_setPort _ srcPortNum srcPort fun _ => hsrcPort)).trans
    (devicesGrow_insert_of_lookup ((AList.lookup_insert_ne (Ne.symm hne)).trans hdst)
      (Device.portsGrow_findOrCreatePort_setPort _ dstPortNum ((dst.findOrCreatePort dstPortNum).2.setInternal internal)
        id))
  have hlinked := hs.setHandler (p := (srcId, srcPortNum)) queue hgrow
    ⟨_, srcPort, (AList.lookup_insert_ne hne).trans (AList.lookup_insert _), AList.lookup_insert _, hsrcPort⟩
  exact ⟨hlinked.landPipe pipe _ ⟨_, _, AList.lookup_insert _, AList.lookup_insert _⟩, hgrow⟩

/-- Every builder call keeps the network sound, and its devices' ports. -/
theorem Network.Sound.call {nw nw' : Network} {c : BuildCall} (hs : nw.Sound) (h : nw.call c = some nw') :
    nw'.Sound ∧ DevicesGrow nw.idToDevice_ nw'.idToDevice_ := by
  cases c with
  | addDevice d =>
    cases h
    have hg : DevicesGrow nw.idToDevice_ (nw.addDevice d).idToDevice_ := by
      unfold Network.addDevice emplace
      split_ifs with hmem
      · exact DevicesGrow.refl _
      · exact devicesGrow_insert fun _ hd => absurd (AList.lookup_isSome.1 (by rw [hd]; rfl)) hmem
    exact ⟨hs.of_grow hg rfl rfl, hg⟩
  | addLink queue pipe srcId dstId srcPortNum dstPortNum internal => exact hs.addLink h
  | connect id num outHandler =>
    obtain ⟨d, hd, h⟩ := Option.bind_eq_some.1 h
    obtain ⟨port, hp, h⟩ := Option.bind_eq_some.1 h
    obtain ⟨port', hconn, h⟩ := Option.bind_eq_some.1 h
    cases h
    have hport' := hs.connect_outHandler hd (fun p hp' hc => by rw [hp] at hp'; cases hp'; exact hc) hconn
    have hg := devicesGrow_insert_of_lookup hd
      (Device.portsGrow_setPort fun _ _ _ => hport' : d.PortsGrow (d.setPort num port'))
    exact ⟨hs.setHandler outHandler hg ⟨_, port', AList.lookup_insert _, AList.lookup_insert _, hport'⟩, hg⟩
  | reconnect id num outHandler =>
    obtain ⟨d, hd, h⟩ := Option.bind_eq_some.1 h
    obtain ⟨port, hp, h⟩ := Option.bind_eq_some.1 h
    obtain ⟨port', hre, h⟩ := Option.bind_eq_some.1 h
    cases h
    have hsome : (nw.outHandlers.lookup (id, num)).isSome := by
      unfold Port.reconnect at hre
      split_ifs at hre with hsome
      exact hsome
    obtain ⟨h₀, hh₀⟩ := Option.isSome_iff_exists.1 hsome
    exact ⟨hs.setHandler outHandler (DevicesGrow.refl _) (hs.connected _ h₀ hh₀), DevicesGrow.refl _⟩
  | addObserver id internalToExternal observer =>
    obtain ⟨d, hd, h⟩ := Option.bind_eq_some.1 h
    obtain ⟨d', hobs, h⟩ := Option.bind_eq_some.1 h
    cases h
    have hports : d'.portNumberToPort_ = d.portNumberToPort_ := by
      unfold Device.addObserver at hobs
      split_ifs at hobs <;> cases hobs <;> rfl
    have hg := devicesGrow_insert_of_lookup hd (Device.portsGrow_of_lookup fun _ _ hp => hports ▸ hp)
    exact ⟨hs.of_grow hg rfl rfl, hg⟩
  | nextAvailablePort id =>
    obtain ⟨d, hd, h⟩ := Option.bind_eq_some.1 h
    obtain ⟨⟨d', port⟩, hnext, h⟩ := Option.bind_eq_some.1 h
    cases h
    obtain ⟨hfree, rfl⟩ := Device.nextAvailablePort_eq_some hnext
    have hg := devicesGrow_insert_of_lookup hd
      (Device.portsGrow_setPort_of_not_mem hfree : d.PortsGrow (d.setPort port.number_ port))
    exact ⟨hs.of_grow hg rfl rfl, hg⟩

/-- Every sequence of builder calls that does not abort keeps the network
    sound. -/
theorem Network.Sound.build {nw nw' : Network} {calls : List BuildCall} (hs : nw.Sound)
    (h : nw.build calls = some nw') : nw'.Sound := by
  induction calls generalizing nw with
  | nil =>
    cases h
    exact hs
  | cons c calls ih =>
    obtain ⟨nw₁, h₁, h⟩ := Option.bind_eq_some.1 h
    exact ih (hs.call h₁).1 h

/-! ### Forwarding on a built network -/

section Forwarding

variable (hdr : Headers) (wire : String × DevicePortNumber → Option (String × DevicePortNumber))

/-- Every packet in flight is in a link. -/
def Net.InLinks (n : Net) : Prop := ∀ e ∈ n.inFlight, (wire e.1).isSome

variable {n n' : Net} {left dropped : List DevicePacket}

theorem Net.arrive_grows {id : String} {portNum : DevicePortNumber} {pkt : DevicePacket} {sampled : Bool}
    (h : n.arrive hdr wire id portNum pkt sampled = some (n', left)) : DevicesGrow n.devices n'.devices := by
  obtain ⟨d, _, d', evs, hd, _, hcall, hdevs, -⟩ := Net.arrive_eq_some hdr wire h
  rw [hdevs]
  exact devicesGrow_insert_of_lookup hd (Device.handlePacketFromPort_ports hdr hcall)

theorem Net.arrive_inLinks {id : String} {portNum : DevicePortNumber} {pkt : DevicePacket} {sampled : Bool}
    (hl : n.InLinks wire) (h : n.arrive hdr wire id portNum pkt sampled = some (n', left)) : n'.InLinks wire := by
  obtain ⟨d, hd, h⟩ := Option.bind_eq_some.1 h
  obtain ⟨port, hport, h⟩ := Option.bind_eq_some.1 h
  obtain ⟨⟨d', evs⟩, hcall, h⟩ := Option.bind_eq_some.1 h
  cases h
  intro e he
  rcases List.mem_append.1 he with he | he
  · exact hl e he
  · obtain ⟨o, ho, rfl⟩ := List.mem_map.1 he
    exact (List.mem_filter.1 ho).2

/-- A step of the network keeps every port, and keeps every packet in
    flight in a link. -/
theorem Net.step_grows {s : NetStep} (hl : n.InLinks wire) (h : n.step hdr wire s = some (n', left, dropped)) :
    DevicesGrow n.devices n'.devices ∧ n'.InLinks wire := by
  cases s with
  | inject id port pkt sampled =>
    have harrive := (Net.step_inject hdr wire h).1
    exact ⟨Net.arrive_grows hdr wire harrive, Net.arrive_inLinks hdr wire hl harrive⟩
  | deliver i sampled =>
    obtain ⟨src, pkt, id, port, -, -, harrive, -⟩ := Net.step_deliver hdr wire h
    have hgrow := Net.arrive_grows hdr wire harrive
    exact ⟨hgrow, Net.arrive_inLinks hdr wire (fun e he => hl e (List.mem_of_mem_eraseIdx he)) harrive⟩
  | drop i =>
    obtain ⟨src, pkt, -, rfl, -, -⟩ := Net.step_drop hdr wire h
    exact ⟨DevicesGrow.refl _, fun e he => hl e (List.mem_of_mem_eraseIdx he)⟩

theorem Net.run_grows {steps : List NetStep} (hl : n.InLinks wire)
    (h : n.run hdr wire steps = some (n', left, dropped)) : DevicesGrow n.devices n'.devices ∧ n'.InLinks wire := by
  induction steps generalizing n left dropped with
  | nil =>
    cases h
    exact ⟨DevicesGrow.refl _, hl⟩
  | cons s steps ih =>
    obtain ⟨n₁, left₁, dropped₁, left₂, dropped₂, h₁, h₂, -, -⟩ := Net.run_cons hdr wire h
    obtain ⟨hg₁, hl₁⟩ := Net.step_grows hdr wire hl h₁
    obtain ⟨hg₂, hl₂⟩ := ih hl₁ h₂
    exact ⟨hg₁.trans hg₂, hl₂⟩

/-- On a wired network, the `i`-th packet in flight has a port at the far
    end of its link, and delivering it fails exactly when the device there
    aborts. -/
theorem Net.deliver_progress {i : Nat} (sampled : Bool) (hw : Wired n.devices wire) (hl : n.InLinks wire)
    (hi : i < n.inFlight.length) :
    ∃ src pkt dst d port, n.inFlight[i]? = some (src, pkt) ∧ wire src = some dst ∧
      n.devices.lookup dst.1 = some d ∧ d.portNumberToPort_.lookup dst.2 = some port ∧
      (n.step hdr wire (.deliver i sampled) = none ↔ d.handlePacketFromPort hdr port pkt sampled = none) := by
  obtain ⟨⟨src, pkt⟩, hget⟩ := Option.isSome_iff_exists.1 (List.getElem?_eq_getElem hi ▸ rfl : n.inFlight[i]?.isSome)
  obtain ⟨dst, hdst⟩ := Option.isSome_iff_exists.1 (hl _ (List.getElem?_mem hget))
  obtain ⟨d, port, hd, hport⟩ := (hw src dst hdst).2
  refine ⟨src, pkt, dst, d, port, hget, hdst, hd, hport, ?_⟩
  simp only [Net.step, Net.arrive, hget, hdst, hd, hport, Option.bind_eq_bind, Option.some_bind]
  cases d.handlePacketFromPort hdr port pkt sampled <;> simp

end Forwarding

/-- On a network built by any sequence of builder calls that does not abort
    and then run under any schedule, every packet in flight has a port
    waiting at the far end of its link: delivering it fails only when the
    device there aborts. -/
theorem build_forward_progress (hdr : Headers) {calls : List BuildCall} {nw : Network} {steps : List NetStep}
    {n : Net} {left dropped : List DevicePacket} {i : Nat} (sampled : Bool)
    (hb : Network.empty.build calls = some nw)
    (hr : (⟨nw.idToDevice_, []⟩ : Net).run hdr nw.wire steps = some (n, left, dropped))
    (hi : i < n.inFlight.length) :
    ∃ src pkt dst d port, n.inFlight[i]? = some (src, pkt) ∧ nw.wire src = some dst ∧
      n.devices.lookup dst.1 = some d ∧ d.portNumberToPort_.lookup dst.2 = some port ∧
      (n.step hdr nw.wire (.deliver i sampled) = none ↔ d.handlePacketFromPort hdr port pkt sampled = none) := by
  obtain ⟨hg, hl⟩ := Net.run_grows hdr nw.wire (fun _ he => by cases he) hr
  exact Net.deliver_progress hdr nw.wire sampled ((Network.sound_empty.build hb).wired.mono hg) hl hi

/-- Two devices registered, port `1` of the first made by
    `NextAvailablePort`, and one link from its port `2` to port `1` of the
    second, through queue `0` and pipe `1`. -/
def exampleBuild : List BuildCall :=
  [.addDevice (Device.new "d" 9), .addDevice (Device.new "e" 2), .nextAvailablePort "d",
    .addLink 0 1 "d" "e" ⟨2⟩ ⟨1⟩ false]

/-- The link leads from port `2` of the first device to port `1` of the
    second. -/
example : (Network.empty.build exampleBuild).map (·.wire ("d", ⟨2⟩)) = some (some ("e", ⟨1⟩)) := by decide

/-- `forwardRule` installed at the first device, and a packet it forwards
    into the link. -/
def exampleForward : List NetStep :=
  [.inject "d" ⟨1⟩ (sscpInstall (forwardRule [exampleFiveTuple])).pkt false,
    .inject "d" ⟨1⟩ forwardedArrival.pkt false]

theorem build_forward_progress_install_forward :
    ∃ nw n left dropped, Network.empty.build exampleBuild = some nw ∧
      (⟨nw.idToDevice_, []⟩ : Net).run exampleHeaders nw.wire exampleForward = some (n, left, dropped) ∧
      0 < n.inFlight.length ∧
      ∃ src pkt dst d port, n.inFlight[0]? = some (src, pkt) ∧ nw.wire src = some dst ∧
        n.devices.lookup dst.1 = some d ∧ d.portNumberToPort_.lookup dst.2 = some port ∧
        (n.step exampleHeaders nw.wire (.deliver 0 false) = none ↔
          d.handlePacketFromPort exampleHeaders port pkt false = none) :=
  ⟨_, _, _, _, rfl, rfl, by decide, build_forward_progress exampleHeaders false
    (rfl : Network.empty.build exampleBuild = _) (rfl : Net.run exampleHeaders _ _ exampleForward = _) (by decide)⟩

end NcodeCommon.Htsim
