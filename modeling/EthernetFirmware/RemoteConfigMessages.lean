import EthernetFirmware.PackedRecords
import EthernetFirmware.RemoteConfig

/-!
# Messages of the remote configuration protocol

The packed structures that the server and its clients exchange, each with
its layout. A message is a header followed by the parameters of its command;
the parameter structures stand here without their header. Words have the byte
order of the cores, lowest byte first, and enumerations take 32 bits.
-/

namespace EthernetFirmware.RemoteConfigMessages

open PackedRecords RemoteConfig

/-- `int32_t`, a status on its way between the cores. -/
abbrev S32 := BitVec 32

/-- `uint8_t`. -/
def u8 : Layout U8 := Layout.word 1

/-- `uint16_t`. -/
def u16 : Layout U16 := Layout.word 2

/-- `uint32_t`. -/
def u32 : Layout U32 := Layout.word 4

/-- `uint8_t[ETHREMOTECFG_MACADDRLEN]`. -/
def macAddr : Layout MacAddr :=
  Layout.record (u8.prod (u8.prod (u8.prod (u8.prod (u8.prod u8)))))
    (fun p => ⟨p.1,p.2.1,p.2.2.1,p.2.2.2.1,p.2.2.2.2.1,p.2.2.2.2.2⟩)
    (fun a => (a.b0,a.b1,a.b2,a.b3,a.b4,a.b5)) (fun _ => rfl) (fun _ => rfl)

/-- `EthRemoteCfg_MsgHdr`. -/
structure MsgHdr where
  /-- Token of the client. -/
  token : U32
  /-- Identity of the client's environment. -/
  clientId : U32
  /-- Request, notification or response. -/
  msgType : U32
  deriving DecidableEq

/-- `EthRemoteCfg_ReqHdr`. -/
structure ReqHdr where
  /-- Common header. -/
  common : MsgHdr
  /-- Request type. -/
  reqType : U32
  /-- Request id. -/
  reqId : U32
  deriving DecidableEq

/-- `EthRemoteCfg_ResHdr`. -/
structure ResHdr where
  /-- Common header. -/
  common : MsgHdr
  /-- Response type. -/
  resType : U32
  /-- Response id. -/
  resId : U32
  /-- Status of the request. -/
  status : S32
  deriving DecidableEq

/-- Layout of `EthRemoteCfg_MsgHdr`. -/
def msgHdr : Layout MsgHdr :=
  Layout.record (u32.prod (u32.prod u32)) (fun p => ⟨p.1,p.2.1,p.2.2⟩)
    (fun h => (h.token,h.clientId,h.msgType)) (fun _ => rfl) (fun _ => rfl)

/-- Layout of `EthRemoteCfg_ReqHdr`. -/
def reqHdr : Layout ReqHdr :=
  Layout.record (msgHdr.prod (u32.prod u32)) (fun p => ⟨p.1,p.2.1,p.2.2⟩)
    (fun h => (h.common,h.reqType,h.reqId)) (fun _ => rfl) (fun _ => rfl)

/-- Layout of `EthRemoteCfg_ResHdr`. -/
def resHdr : Layout ResHdr :=
  Layout.record (msgHdr.prod (u32.prod (u32.prod u32))) (fun p => ⟨p.1,p.2.1,p.2.2.1,p.2.2.2⟩)
    (fun h => (h.common,h.resType,h.resId,h.status)) (fun _ => rfl) (fun _ => rfl)

/-- `EthRemoteCfg_MsgType`: a request. -/
def msgTypeRequest : U32 := 0#32

/-- A response. -/
def msgTypeResponse : U32 := 2#32

/-- `EthRemoteCfg_AttachReq`. -/
structure AttachReq where
  /-- Virtual port to attach. -/
  virtPort : U32

/-- `EthRemoteCfg_AllocRxReq`. -/
structure AllocRxReq where
  /-- Relative index of the receive flow. -/
  flowIdx : U32

/-- `EthRemoteCfg_AllocTxReq`. -/
structure AllocTxReq where
  /-- Relative priority of the transmit channel. -/
  chRelPriority : U32

/-- `EthRemoteCfg_FreeRxReq` and `EthRemoteCfg_RxDefaultFlowRegisterReq`: a
receive flow. -/
structure RxFlowReq where
  /-- Flow index base. -/
  flowIdxBase : U32
  /-- Flow index offset. -/
  flowIdxOffset : U32

/-- `EthRemoteCfg_FreeTxReq`. -/
structure FreeTxReq where
  /-- Peer destination thread of the channel. -/
  txPsilDstId : U32

/-- `EthRemoteCfg_FreeMacReq`. -/
structure FreeMacReq where
  /-- Address to free. -/
  macAddr : MacAddr

/-- `EthRemoteCfg_MacAddrRxFlowReq`. -/
structure MacAddrRxFlowReq where
  /-- Address. -/
  macAddr : MacAddr
  /-- Flow index base. -/
  flowIdxBase : U32
  /-- Flow index offset. -/
  flowIdxOffset : U32

/-- `EthRemoteCfg_IPv4AddrRegisterReq`; the address is the word its four
octets make up in memory. -/
structure IPv4AddrRegisterReq where
  /-- IP address. -/
  ipAddr : U32
  /-- Address for the ARP table. -/
  macAddr : MacAddr

/-- `EthRemoteCfg_IPv4AddrDeregisterReq`. -/
structure IPv4AddrDeregisterReq where
  /-- IP address. -/
  ipAddr : U32

/-- `EthRemoteCfg_VlanJoinReq` and `EthRemoteCfg_VlanLeaveReq`. -/
structure VlanReq where
  /-- VLAN id. -/
  vlanId : U16
  /-- Address of the client. -/
  macAddr : MacAddr
  /-- Flow index base. -/
  flowIdxBase : U32
  /-- Flow index offset. -/
  flowIdxOffset : U32

/-- `EthRemoteCfg_MatchEthertypeAddReq`. -/
structure MatchEthertypeAddReq where
  /-- EtherType. -/
  ethertype : U16
  /-- Flow index base. -/
  flowIdxBase : U32
  /-- Flow index offset. -/
  flowIdxOffset : U32

/-- `EthRemoteCfg_MatchEthertypeDelReq`. -/
structure MatchEthertypeDelReq where
  /-- EtherType. -/
  ethertype : U16

/-- `EthRemoteCfg_FilterMacAddReq`. -/
structure FilterMacAddReq where
  /-- Multicast address. -/
  macAddr : MacAddr
  /-- VLAN id. -/
  vlanId : U16
  /-- Flow index base. -/
  flowIdxBase : U32
  /-- Flow index offset. -/
  flowIdxOffset : U32

/-- `EthRemoteCfg_FilterMacDelReq`. -/
structure FilterMacDelReq where
  /-- Multicast address. -/
  macAddr : MacAddr
  /-- VLAN id. -/
  vlanId : U16

/-- `EthRemoteCfg_RemoteTimerRegisterReq`. -/
structure RemoteTimerRegisterReq where
  /-- Hardware push. -/
  hwPushNum : U8
  /-- Timer. -/
  timerId : U8

/-- `EthRemoteCfg_RemoteTimerDeregisterReq`. -/
structure RemoteTimerDeregisterReq where
  /-- Hardware push. -/
  hwPushNum : U8

/-- `EthRemoteCfg_AllocHwPushRes` and `EthRemoteCfg_FreeHwPushReq`. -/
structure HwPush where
  /-- Hardware push of the time stamping unit. -/
  hwPushNum : U32

/-- `EthRemoteCfg_OfferVirtPortRes`. -/
structure OfferVirtPortRes where
  /-- Virtual switch ports. -/
  switchPortMask : U32
  /-- Virtual MAC ports. -/
  macPortMask : U32

/-- `EthRemoteCfg_AttachRes`. -/
structure AttachRes where
  /-- Receive unit. -/
  rxMtu : U32
  /-- Transmit unit. -/
  txMtu : U32
  /-- Feature bits. -/
  features : U32
  /-- Number of transmit channels. -/
  numTxCh : U32
  /-- Number of receive flows. -/
  numRxFlow : U32

/-- `EthRemoteCfg_AttachExtRes`. -/
structure AttachExtRes where
  /-- Receive unit. -/
  rxMtu : U32
  /-- Transmit unit. -/
  txMtu : U32
  /-- Flow index base. -/
  rxFlowIdxBase : U32
  /-- Flow index offset. -/
  rxFlowIdxOffset : U32
  /-- Transmit peer thread. -/
  txPsilDstId : U32
  /-- Address given. -/
  macAddr : MacAddr
  /-- Feature bits. -/
  features : U32
  /-- Receive peer thread. -/
  rxPsilSrcId : U32

/-- `EthRemoteCfg_AllocRxRes`. -/
structure AllocRxRes where
  /-- Flow index base. -/
  rxFlowIdxBase : U32
  /-- Flow index offset. -/
  rxFlowIdxOffset : U32
  /-- Receive peer thread. -/
  rxPsilSrcId : U32

/-- `EthRemoteCfg_AllocTxRes`. -/
structure AllocTxRes where
  /-- Transmit peer thread. -/
  txPsilDstId : U32

/-- `EthRemoteCfg_AllocMacRes`. -/
structure AllocMacRes where
  /-- Address given. -/
  macAddr : MacAddr

/-- `EthRemoteCfg_PortLinkStatusRes`; the flag is the byte it takes. -/
structure PortLinkStatusRes where
  /-- Link status. -/
  isLinked : U8
  /-- Link speed. -/
  speed : U32
  /-- Duplexity. -/
  duplexity : U32

/-- `EthRemoteCfg_ServerStatusRes`. -/
structure ServerStatusRes where
  /-- Status of the server. -/
  status : U32

/-- Request parameters of each command, as the structure named by its
documentation. -/
def ReqParams : CmdType → Type
  | .attach | .attachExt => AttachReq
  | .allocTx => AllocTxReq
  | .allocRx => AllocRxReq
  | .freeTx => FreeTxReq
  | .freeRx | .setRxDefaultFlow | .delRxDefaultFlow => RxFlowReq
  | .freeMac => FreeMacReq
  | .registerMac | .deregisterMac => MacAddrRxFlowReq
  | .registerIpv4 => IPv4AddrRegisterReq
  | .deregisterIpv4 => IPv4AddrDeregisterReq
  | .joinVlan | .leaveVlan => VlanReq
  | .addFilterMac => FilterMacAddReq
  | .delFilterMac => FilterMacDelReq
  | .registerMatchEthtype => MatchEthertypeAddReq
  | .deregisterMatchEthtype => MatchEthertypeDelReq
  | .registerRemoteTimer => RemoteTimerRegisterReq
  | .deregisterRemoteTimer => RemoteTimerDeregisterReq
  | .freeCptsHwPush => HwPush
  | .virtPortInfo | .detach | .portLinkStatus | .allocMac | .getServerStatus
  | .teardownCompletion | .dump | .allocCptsHwPush => Unit

/-- Response parameters of each command. -/
def ResParams : CmdType → Type
  | .virtPortInfo => OfferVirtPortRes
  | .attach => AttachRes
  | .attachExt => AttachExtRes
  | .allocTx => AllocTxRes
  | .allocRx => AllocRxRes
  | .allocMac => AllocMacRes
  | .portLinkStatus => PortLinkStatusRes
  | .getServerStatus => ServerStatusRes
  | .allocCptsHwPush => HwPush
  | .detach | .freeTx | .freeRx | .freeMac | .registerMac | .deregisterMac
  | .setRxDefaultFlow | .delRxDefaultFlow | .registerIpv4 | .deregisterIpv4 | .joinVlan
  | .leaveVlan | .addFilterMac | .delFilterMac | .registerMatchEthtype
  | .deregisterMatchEthtype | .registerRemoteTimer | .deregisterRemoteTimer
  | .teardownCompletion | .dump | .freeCptsHwPush => Unit

/-- A receive flow. -/
def rxFlowReq : Layout RxFlowReq :=
  (u32.prod u32).record (fun p => ⟨p.1,p.2⟩) (fun r => (r.flowIdxBase,r.flowIdxOffset))
    (fun _ => rfl) (fun _ => rfl)

/-- A port to attach. -/
def attachReq : Layout AttachReq := u32.record AttachReq.mk (·.virtPort) (fun _ => rfl) fun _ => rfl

/-- An address with a receive flow. -/
def macAddrRxFlowReq : Layout MacAddrRxFlowReq :=
  (macAddr.prod (u32.prod u32)).record (fun p => ⟨p.1,p.2.1,p.2.2⟩)
    (fun r => (r.macAddr,r.flowIdxBase,r.flowIdxOffset)) (fun _ => rfl) (fun _ => rfl)

/-- A VLAN with the client's address and flow. -/
def vlanReq : Layout VlanReq :=
  (u16.prod (macAddr.prod (u32.prod u32))).record (fun p => ⟨p.1,p.2.1,p.2.2.1,p.2.2.2⟩)
    (fun r => (r.vlanId,r.macAddr,r.flowIdxBase,r.flowIdxOffset)) (fun _ => rfl) (fun _ => rfl)

/-- A hardware push. -/
def hwPush : Layout HwPush := u32.record HwPush.mk (·.hwPushNum) (fun _ => rfl) fun _ => rfl

/-- Layout of the request parameters of a command. -/
def reqParams : (t : CmdType) → Layout (ReqParams t)
  | .attach | .attachExt => attachReq
  | .allocTx => u32.record AllocTxReq.mk (·.chRelPriority) (fun _ => rfl) fun _ => rfl
  | .allocRx => u32.record AllocRxReq.mk (·.flowIdx) (fun _ => rfl) fun _ => rfl
  | .freeTx => u32.record FreeTxReq.mk (·.txPsilDstId) (fun _ => rfl) fun _ => rfl
  | .freeRx | .setRxDefaultFlow | .delRxDefaultFlow => rxFlowReq
  | .freeMac => macAddr.record FreeMacReq.mk (·.macAddr) (fun _ => rfl) fun _ => rfl
  | .registerMac | .deregisterMac => macAddrRxFlowReq
  | .registerIpv4 =>
    (u32.prod macAddr).record (fun p => ⟨p.1,p.2⟩) (fun r => (r.ipAddr,r.macAddr))
      (fun _ => rfl) fun _ => rfl
  | .deregisterIpv4 => u32.record IPv4AddrDeregisterReq.mk (·.ipAddr) (fun _ => rfl) fun _ => rfl
  | .joinVlan | .leaveVlan => vlanReq
  | .addFilterMac =>
    (macAddr.prod (u16.prod (u32.prod u32))).record (fun p => ⟨p.1,p.2.1,p.2.2.1,p.2.2.2⟩)
      (fun r => (r.macAddr,r.vlanId,r.flowIdxBase,r.flowIdxOffset)) (fun _ => rfl) fun _ => rfl
  | .delFilterMac =>
    (macAddr.prod u16).record (fun p => ⟨p.1,p.2⟩) (fun r => (r.macAddr,r.vlanId))
      (fun _ => rfl) fun _ => rfl
  | .registerMatchEthtype =>
    (u16.prod (u32.prod u32)).record (fun p => ⟨p.1,p.2.1,p.2.2⟩)
      (fun r => (r.ethertype,r.flowIdxBase,r.flowIdxOffset)) (fun _ => rfl) fun _ => rfl
  | .deregisterMatchEthtype =>
    u16.record MatchEthertypeDelReq.mk (·.ethertype) (fun _ => rfl) fun _ => rfl
  | .registerRemoteTimer =>
    (u8.prod u8).record (fun p => ⟨p.1,p.2⟩) (fun r => (r.hwPushNum,r.timerId))
      (fun _ => rfl) fun _ => rfl
  | .deregisterRemoteTimer =>
    u8.record RemoteTimerDeregisterReq.mk (·.hwPushNum) (fun _ => rfl) fun _ => rfl
  | .freeCptsHwPush => hwPush
  | .virtPortInfo | .detach | .portLinkStatus | .allocMac | .getServerStatus
  | .teardownCompletion | .dump | .allocCptsHwPush => Layout.empty

/-- Layout of the response parameters of a command. -/
def resParams : (t : CmdType) → Layout (ResParams t)
  | .virtPortInfo =>
    (u32.prod u32).record (fun p => ⟨p.1,p.2⟩) (fun r => (r.switchPortMask,r.macPortMask))
      (fun _ => rfl) fun _ => rfl
  | .attach =>
    (u32.prod (u32.prod (u32.prod (u32.prod u32)))).record
      (fun p => ⟨p.1,p.2.1,p.2.2.1,p.2.2.2.1,p.2.2.2.2⟩)
      (fun r => (r.rxMtu,r.txMtu,r.features,r.numTxCh,r.numRxFlow)) (fun _ => rfl) fun _ => rfl
  | .attachExt =>
    (u32.prod (u32.prod (u32.prod (u32.prod (u32.prod (macAddr.prod (u32.prod u32))))))).record
      (fun p => ⟨p.1,p.2.1,p.2.2.1,p.2.2.2.1,p.2.2.2.2.1,p.2.2.2.2.2.1,p.2.2.2.2.2.2.1,
        p.2.2.2.2.2.2.2⟩)
      (fun r => (r.rxMtu,r.txMtu,r.rxFlowIdxBase,r.rxFlowIdxOffset,r.txPsilDstId,r.macAddr,
        r.features,r.rxPsilSrcId)) (fun _ => rfl) fun _ => rfl
  | .allocTx => u32.record AllocTxRes.mk (·.txPsilDstId) (fun _ => rfl) fun _ => rfl
  | .allocRx =>
    (u32.prod (u32.prod u32)).record (fun p => ⟨p.1,p.2.1,p.2.2⟩)
      (fun r => (r.rxFlowIdxBase,r.rxFlowIdxOffset,r.rxPsilSrcId)) (fun _ => rfl) fun _ => rfl
  | .allocMac => macAddr.record AllocMacRes.mk (·.macAddr) (fun _ => rfl) fun _ => rfl
  | .portLinkStatus =>
    (u8.prod (u32.prod u32)).record (fun p => ⟨p.1,p.2.1,p.2.2⟩)
      (fun r => (r.isLinked,r.speed,r.duplexity)) (fun _ => rfl) fun _ => rfl
  | .getServerStatus => u32.record ServerStatusRes.mk (·.status) (fun _ => rfl) fun _ => rfl
  | .allocCptsHwPush => hwPush
  | .detach | .freeTx | .freeRx | .freeMac | .registerMac | .deregisterMac
  | .setRxDefaultFlow | .delRxDefaultFlow | .registerIpv4 | .deregisterIpv4 | .joinVlan
  | .leaveVlan | .addFilterMac | .delFilterMac | .registerMatchEthtype
  | .deregisterMatchEthtype | .registerRemoteTimer | .deregisterRemoteTimer
  | .teardownCompletion | .dump | .freeCptsHwPush => Layout.empty

/-- Request of a command: its header and parameters. -/
def request (t : CmdType) : Layout (ReqHdr × ReqParams t) := reqHdr.prod (reqParams t)

/-- Response to a command: its header and parameters. -/
def response (t : CmdType) : Layout (ResHdr × ResParams t) := resHdr.prod (resParams t)

/-- `ETHREMOTECFG_IPC_MSG_SIZE`. -/
def ipcMsgSize : ℕ := 528

/-- Commands in the order of their numbers. -/
def commands : List CmdType :=
  [.virtPortInfo,.attach,.attachExt,.detach,.portLinkStatus,.allocTx,.allocRx,.allocMac,.freeTx,
    .freeRx,.freeMac,.registerMac,.deregisterMac,.setRxDefaultFlow,.delRxDefaultFlow,
    .registerIpv4,.deregisterIpv4,.joinVlan,.leaveVlan,.addFilterMac,.delFilterMac,
    .registerMatchEthtype,.deregisterMatchEthtype,.registerRemoteTimer,.deregisterRemoteTimer,
    .getServerStatus,.teardownCompletion,.dump,.allocCptsHwPush,.freeCptsHwPush]

/-- Number of a command in `EthRemoteCfg_CmdType`. -/
def code (t : CmdType) : U32 := BitVec.ofNat 32 (commands.idxOf t)

/-- Command with a number, if there is one. -/
def command (n : U32) : Option CmdType := commands[n.toNat]?

/-- Every command is found by its number. -/
theorem command_code (t : CmdType) : command (code t) = some t := by cases t <;> rfl

/-- A request fits in a buffer. -/
theorem request_size_le (t : CmdType) : (request t).size ≤ ipcMsgSize := by
  cases t <;> decide

/-- A response fits in a buffer. -/
theorem response_size_le (t : CmdType) : (response t).size ≤ ipcMsgSize := by
  cases t <;> decide

end EthernetFirmware.RemoteConfigMessages
