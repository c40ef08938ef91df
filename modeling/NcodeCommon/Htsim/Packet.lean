import Mathlib.Data.List.Basic

/-!
# Five-tuples, packets and the port and tag wrappers of `htsim`

`net::FiveTuple`, `net::DevicePortNumber`, `PacketTag` and `Packet` are
declared in headers that are not part of `src/` (`net.h`, `packet.h`).  We
keep of them what the modelled functions read.  `GetKeyAndWildcard<0..6>` in
`src/htsim/match.cc` reads every field through `Raw()` as a `uint32_t`, and we
give every raw value that width.

A packet that is not a control message is, to the forwarding plane, its
five-tuple, its size and its tag.
-/

namespace NcodeCommon.Htsim

/-- `net::DevicePortNumber`, by its raw value. -/
structure DevicePortNumber where
  raw : UInt32
deriving DecidableEq, Repr

/-- `PacketTag`, by its raw value. -/
structure PacketTag where
  raw : UInt32
deriving DecidableEq, Repr

/-- `net::FiveTuple`: source and destination address, protocol, source and
    destination port, by their raw values. -/
structure FiveTuple where
  ipSrc : UInt32
  ipDst : UInt32
  ipProto : UInt32
  srcPort : UInt32
  dstPort : UInt32
deriving DecidableEq, Repr

/-- The part of a `Packet` the match table and the device read. -/
structure Packet where
  fiveTuple : FiveTuple
  sizeBytes : UInt32
  tag : PacketTag
deriving DecidableEq, Repr

end NcodeCommon.Htsim
