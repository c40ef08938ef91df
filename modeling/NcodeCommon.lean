import NcodeCommon.Binary64
import NcodeCommon.Packer.RLEField
import NcodeCommon.Packer.RLEFieldStrides
import NcodeCommon.Packer.RLEFieldReaders
import NcodeCommon.Packer.PackedUintSeq
import NcodeCommon.Htsim.Packet
import NcodeCommon.Htsim.MatchRule
import NcodeCommon.Htsim.ActionStats
import NcodeCommon.Htsim.MatchTree
import NcodeCommon.Htsim.Matcher
import NcodeCommon.Htsim.Device
import NcodeCommon.Htsim.DeviceAccounting
import NcodeCommon.Htsim.DeviceConnections
import NcodeCommon.Htsim.Forwarding
import NcodeCommon.Htsim.Network
import NcodeCommon.Htsim.Progress
import NcodeCommon.Stats.Bin
import NcodeCommon.Stats.SummaryStats
import NcodeCommon.Stats.Empirical2DFunction
import NcodeCommon.LRUCache.Refinement
