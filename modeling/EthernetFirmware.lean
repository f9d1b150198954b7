import EthernetFirmware.GuardedRuns
import EthernetFirmware.Lockstep
import EthernetFirmware.SlotTables
import EthernetFirmware.KeyedTables
import EthernetFirmware.RingBuffers
import EthernetFirmware.RingQueues
import EthernetFirmware.InterCoreQueue
import EthernetFirmware.InterCoreQueueSteps
import EthernetFirmware.BufferPool
import EthernetFirmware.TapTransmit
import EthernetFirmware.RemoteConfig
import EthernetFirmware.RemoteTimers
import EthernetFirmware.ProxyServerLedger
import EthernetFirmware.ProxyServerRollback
import EthernetFirmware.ProxyServerTokens
import EthernetFirmware.ProxyServerPorts
import EthernetFirmware.ArpTable
import EthernetFirmware.ProxyServerTasks
import EthernetFirmware.RecoveryMonitor
import EthernetFirmware.VepaTable
import EthernetFirmware.VepaMap
import EthernetFirmware.VlanTable
import EthernetFirmware.VlanJoinLeave
import EthernetFirmware.VlanMembership
import EthernetFirmware.VlanSlots
import EthernetFirmware.VlanIsolation
import EthernetFirmware.McastFilter
import EthernetFirmware.McastOwnership
import EthernetFirmware.McastExclusive
import EthernetFirmware.McastVepa
import EthernetFirmware.ShmCirbuf
import EthernetFirmware.ShmFifo
import EthernetFirmware.ProxyClientCommands
import EthernetFirmware.ProxyClientMatching
import EthernetFirmware.ProxyClientNotify
import EthernetFirmware.ArpMap
import EthernetFirmware.ProxyServerIpv4
import EthernetFirmware.ProxyServerResources
import EthernetFirmware.ProxyServerDetach
import EthernetFirmware.ProxyServerPolicers
import EthernetFirmware.ProxyServerRxFlows
import EthernetFirmware.RemoteService
import EthernetFirmware.LogRing
import EthernetFirmware.LogCpuSync
import EthernetFirmware.SitaraOsalPools
import EthernetFirmware.JacintoTaskPool
import EthernetFirmware.VepaClients
import EthernetFirmware.ProxyServerMacFlows
import EthernetFirmware.ProxyServerMacLedger
import EthernetFirmware.ProxyClientTimeout
import EthernetFirmware.McastClaims
import EthernetFirmware.VlanAtomic
import EthernetFirmware.NotifyTask
import EthernetFirmware.EthernetFrames
import EthernetFirmware.VepaReplication
import EthernetFirmware.ArpReplies
import EthernetFirmware.FrontFilling
import EthernetFirmware.ResourcePartition
import EthernetFirmware.MonitorStats
import EthernetFirmware.MonitorAccounting
import EthernetFirmware.TimestampRing
import EthernetFirmware.InterVlanSwitch
import EthernetFirmware.CArrays
import EthernetFirmware.EndpointTable
import EthernetFirmware.TsnLog
import EthernetFirmware.EstClassifier
import EthernetFirmware.EstSchedule
import EthernetFirmware.TokenBuckets
import EthernetFirmware.BitrateControl
import EthernetFirmware.Arenas
import EthernetFirmware.LinearHeap
import EthernetFirmware.BandwidthStats
import EthernetFirmware.PackedFields
import EthernetFirmware.TraceErrorCodes
import EthernetFirmware.PerfStats
import EthernetFirmware.PackedRecords
import EthernetFirmware.RemoteConfigMessages
import EthernetFirmware.ProxyServerDispatch
import EthernetFirmware.RemoteCalls
import EthernetFirmware.RecoveryClients
import EthernetFirmware.FilledTables
import EthernetFirmware.ConsoleCommands
import EthernetFirmware.SharedMcastBridge
import EthernetFirmware.MulticastDelivery
import EthernetFirmware.ProxyArp
import EthernetFirmware.TsnModules
import EthernetFirmware.CioLines
import EthernetFirmware.ConsoleOutput
import EthernetFirmware.PortModes
import EthernetFirmware.IetPreemption
import EthernetFirmware.LinearHeapFree
