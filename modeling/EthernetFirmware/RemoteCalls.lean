import EthernetFirmware.ProxyServerDispatch

/-!
# Remote calls over bytes

The commands a client core gives through its proxy objects, down to the
bytes on the wire: the request with the header filled in, the server's task,
the task of the client that receives messages, the mailbox, and the copy of
the response into the caller's structure. Any number of cores call in any
order, next to other clients of the server and messages of other kinds.

`directStep` gives every command to the server's handler as values. The
results are what a call over bytes returns, in every interleaving, also where a
message is not sent or not posted. A wait on the mailbox may fail at any time;
the results are the same as long as none fails while the response can still come.
-/

namespace EthernetFirmware.RemoteCalls

open Function PackedRecords RemoteConfig RemoteConfigMessages ProxyServerDispatch GuardedRuns
open ProxyClientCommands (clientMax clientIdRtos)

/-- `CpswProxy_ClientObj`: the fields a command uses. -/
structure Proxy where
  /-- Token used after attaching. -/
  token : U32
  /-- Features of the attached port. -/
  features : U32
  /-- Id of the next request. -/
  reqId : U32

/-- A command with its request parameters. -/
structure Invocation where
  /-- Command. -/
  cmd : CmdType
  /-- Request parameters. -/
  params : ReqParams cmd

section Api

variable (flowIdxBase flowIdxOffset : U32) (macAddr : MacAddr) (vlanId etherType : U16)

/-- `CpswProxy_attach`. -/
def attach (virtPort : U32) : Invocation := ⟨.attach,AttachReq.mk virtPort⟩

/-- `CpswProxy_attachExtended`. -/
def attachExtended (virtPort : U32) : Invocation := ⟨.attachExt,AttachReq.mk virtPort⟩

/-- `CpswProxy_detach`. -/
def detach : Invocation := ⟨.detach,()⟩

/-- `CpswProxy_allocTxCh`. -/
def allocTxCh (chRelPriority : U32) : Invocation := ⟨.allocTx,AllocTxReq.mk chRelPriority⟩

/-- `CpswProxy_freeTxCh`. -/
def freeTxCh (txChNum : U32) : Invocation := ⟨.freeTx,FreeTxReq.mk txChNum⟩

/-- `CpswProxy_allocRxFlow`. -/
def allocRxFlow (flowIdx : U32) : Invocation := ⟨.allocRx,AllocRxReq.mk flowIdx⟩

/-- `CpswProxy_freeRxFlow`. -/
def freeRxFlow : Invocation := ⟨.freeRx,RxFlowReq.mk flowIdxBase flowIdxOffset⟩

/-- `CpswProxy_allocMac`. -/
def allocMac : Invocation := ⟨.allocMac,()⟩

/-- `CpswProxy_freeMac`. -/
def freeMac : Invocation := ⟨.freeMac,FreeMacReq.mk macAddr⟩

/-- `CpswProxy_registerDefaultRxFlow`. -/
def registerDefaultRxFlow : Invocation :=
  ⟨.setRxDefaultFlow,RxFlowReq.mk flowIdxBase flowIdxOffset⟩

/-- `CpswProxy_unregisterDefaultRxFlow`. -/
def unregisterDefaultRxFlow : Invocation :=
  ⟨.delRxDefaultFlow,RxFlowReq.mk flowIdxBase flowIdxOffset⟩

/-- `CpswProxy_registerDstMacRxFlow`. -/
def registerDstMacRxFlow : Invocation :=
  ⟨.registerMac,MacAddrRxFlowReq.mk macAddr flowIdxBase flowIdxOffset⟩

/-- `CpswProxy_unregisterDstMacRxFlow`. -/
def unregisterDstMacRxFlow : Invocation :=
  ⟨.deregisterMac,MacAddrRxFlowReq.mk macAddr flowIdxBase flowIdxOffset⟩

/-- `CpswProxy_registerIPV4Addr`. -/
def registerIPV4Addr (ipv4Addr : U32) : Invocation :=
  ⟨.registerIpv4,IPv4AddrRegisterReq.mk ipv4Addr macAddr⟩

/-- `CpswProxy_unregisterIPV4Addr`. -/
def unregisterIPV4Addr (ipv4Addr : U32) : Invocation :=
  ⟨.deregisterIpv4,IPv4AddrDeregisterReq.mk ipv4Addr⟩

/-- `CpswProxy_isPhyLinked`. -/
def isPhyLinked : Invocation := ⟨.portLinkStatus,()⟩

/-- `CpswProxy_teardownCompletion`. -/
def teardownCompletion : Invocation := ⟨.teardownCompletion,()⟩

/-- `CpswProxy_registerEthertypeRxFlow`. -/
def registerEthertypeRxFlow : Invocation :=
  ⟨.registerMatchEthtype,MatchEthertypeAddReq.mk etherType flowIdxBase flowIdxOffset⟩

/-- `CpswProxy_unregisterEthertypeRxFlow`. -/
def unregisterEthertypeRxFlow : Invocation :=
  ⟨.deregisterMatchEthtype,MatchEthertypeDelReq.mk etherType⟩

/-- `CpswProxy_registerRemoteTimer`. -/
def registerRemoteTimer (timerId hwPushNum : U8) : Invocation :=
  ⟨.registerRemoteTimer,RemoteTimerRegisterReq.mk hwPushNum timerId⟩

/-- `CpswProxy_unregisterRemoteTimer`. -/
def unregisterRemoteTimer (hwPushNum : U8) : Invocation :=
  ⟨.deregisterRemoteTimer,RemoteTimerDeregisterReq.mk hwPushNum⟩

/-- `CpswProxy_joinVlan`. -/
def joinVlan : Invocation := ⟨.joinVlan,VlanReq.mk vlanId macAddr flowIdxBase flowIdxOffset⟩

/-- `CpswProxy_leaveVlan`. -/
def leaveVlan : Invocation := ⟨.leaveVlan,VlanReq.mk vlanId macAddr flowIdxBase flowIdxOffset⟩

/-- `CpswProxy_filterAddMac`, which refuses other than multicast addresses
without asking the server. -/
def filterAddMac : Except S32 Invocation :=
  if macAddr.isMcast then
    .ok ⟨.addFilterMac,FilterMacAddReq.mk macAddr vlanId flowIdxBase flowIdxOffset⟩
  else .error (wire einvalidParams)

/-- `CpswProxy_filterDelMac`. -/
def filterDelMac : Except S32 Invocation :=
  if macAddr.isMcast then .ok ⟨.delFilterMac,FilterMacDelReq.mk macAddr vlanId⟩
  else .error (wire einvalidParams)

/-- `CpswProxy_dumpStats`. -/
def dumpStats : Invocation := ⟨.dump,()⟩

/-- `CpswProxy_getServerStatus`. -/
def getServerStatus : Invocation := ⟨.getServerStatus,()⟩

/-- `CpswProxy_allocHwPushInst`. -/
def allocHwPushInst : Invocation := ⟨.allocCptsHwPush,()⟩

/-- `CpswProxy_freeHwPushInst`. -/
def freeHwPushInst (hwPushNum : U32) : Invocation := ⟨.freeCptsHwPush,HwPush.mk hwPushNum⟩

end Api

/-- What `CpswProxy_sendCmd` leaves its caller. -/
structure Reply (t : CmdType) where
  /-- Status it returns. -/
  status : S32
  /-- Response copied into the caller's structure, if any. -/
  res : Option (ResHdr × ResParams t)

/-- Response parameters in the caller's structure, cleared beforehand. -/
def Reply.params {t : CmdType} (r : Reply t) : ResParams t :=
  r.res.elim ((resParams t).decode (List.replicate (resParams t).size 0#8)) Prod.snd

/-- Response parameters handed out on success only. -/
def Reply.onSuccess {t : CmdType} (r : Reply t) : Option (ResParams t) :=
  if r.status = wire sok then some r.params else none

/-- What the function of a command hands its caller. -/
inductive Output where
  /-- A status. -/
  | status (s : S32)
  /-- `CpswProxy_attach`. -/
  | attach (s : S32) (out : Option AttachRes)
  /-- `CpswProxy_attachExtended`; the receive peer thread stays behind. -/
  | attachExtended (s : S32) (out : Option AttachExtRes)
  /-- `CpswProxy_allocTxCh`: the thread is handed out whatever the status. -/
  | allocTxCh (s : S32) (txPsilThreadId : U32)
  /-- `CpswProxy_allocRxFlow`. -/
  | allocRxFlow (s : S32) (rxFlowIdxBase rxFlowIdxOffset : U32)
  /-- `CpswProxy_allocMac`. -/
  | allocMac (s : S32) (macAddr : MacAddr)
  /-- `CpswProxy_isPhyLinked`: the link flag, zero unless the command succeeded. -/
  | isPhyLinked (linked : U8)
  /-- `CpswProxy_getServerStatus`. -/
  | getServerStatus (s : S32) (serverStatus : U32)
  /-- `CpswProxy_allocHwPushInst`. -/
  | allocHwPushInst (s : S32) (hwPushNum : Option U32)

/-- `ETHREMOTECFG_SERVERSTATUS_BAD`. -/
def serverStatusBad : U32 := 3#32

/-- What the function of a command makes of a reply. -/
def output : (t : CmdType) → Reply t → Output
  | .attach,r => .attach r.status r.onSuccess
  | .attachExt,r => .attachExtended r.status r.onSuccess
  | .allocTx,r => .allocTxCh r.status (AllocTxRes.txPsilDstId r.params)
  | .allocRx,r =>
    .allocRxFlow r.status (AllocRxRes.rxFlowIdxBase r.params) (AllocRxRes.rxFlowIdxOffset r.params)
  | .allocMac,r => .allocMac r.status (AllocMacRes.macAddr r.params)
  | .portLinkStatus,r => .isPhyLinked (r.onSuccess.elim 0#8 PortLinkStatusRes.isLinked)
  | .getServerStatus,r =>
    .getServerStatus r.status
      (if r.status = wire etimeout then serverStatusBad else ServerStatusRes.status r.params)
  | .allocCptsHwPush,r => .allocHwPushInst r.status (r.onSuccess.map HwPush.hwPushNum)
  | _,r => .status r.status

/-- The attach commands keep the token and features of a successful response. -/
def saveToken : (t : CmdType) → Reply t → Proxy → Proxy
  | .attach,⟨status,some (hdr,out)⟩,p =>
    if status = wire sok then
      { p with token := hdr.common.token, features := AttachRes.features out }
    else p
  | .attachExt,⟨status,some (hdr,out)⟩,p =>
    if status = wire sok then
      { p with token := hdr.common.token, features := AttachExtRes.features out }
    else p
  | _,_,p => p

/-- `CpswProxy_Msg`: a received message in the mailbox. -/
structure Msg where
  /-- Actual message length. -/
  len : ℕ
  /-- Copy of the receive buffer. -/
  buf : Buffer

/-- Command that holds the mutex. -/
structure Call where
  /-- Client object the command belongs to. -/
  client : Fin clientMax
  /-- Command. -/
  cmd : CmdType
  /-- Request id. -/
  reqId : U32
  /-- Status so far. -/
  status : S32

/-- A client core with its channels to and from the server. -/
structure ClientCore where
  /-- Client objects. -/
  clients : Fin clientMax → Proxy
  /-- Command that holds the mutex. -/
  call : Option Call
  /-- Receive buffer of the command handler task. -/
  msgBuf : Buffer
  /-- Command response mailbox. -/
  mbx : List Msg
  /-- Requests the server has not taken. -/
  toServer : List Message
  /-- Responses on their way. -/
  toClient : List Message

/-- Header of the request a client object sends. -/
def requestHdr (p : Proxy) (t : CmdType) : ReqHdr :=
  ⟨⟨p.token,clientIdRtos,msgTypeRequest⟩,code t,p.reqId⟩

/-- First part of `CpswProxy_sendCmd`: take the mutex, count the request and
send it; `st` is what the sending returns. A command waits while another one
holds the mutex. -/
def sendCmd (k : ClientCore) (c : Fin clientMax) (i : Invocation) (st : S32) :
    Option Output × ClientCore :=
  match k.call with
  | some _ => (none,k)
  | none =>
    let p := k.clients c
    let k' := { k with clients := update k.clients c { p with reqId := p.reqId + 1#32 } }
    if st = wire sok then
      (none,{ k' with
        call := some ⟨c,i.cmd,p.reqId,st⟩
        toServer := k.toServer ++ [requestMsg i.cmd (requestHdr p i.cmd) i.params] })
    else (some (output i.cmd ⟨st,none⟩),k')

/-- `CpswProxy_cmdHandlerTask` for one message, from the server or not: a
response of the server is posted to the mailbox, if the posting succeeds. -/
def cmdHandlerTask (k : ClientCore) (fromMaster posted : Bool) (m : Message) : ClientCore :=
  let buf := k.msgBuf.receive m
  if fromMaster = true ∧ (msgHdr.decode buf.bytes).msgType = msgTypeResponse ∧ posted = true then
    { k with msgBuf := buf, mbx := k.mbx ++ [⟨m.bytes.length,buf⟩] }
  else { k with msgBuf := buf }

/-- End of `CpswProxy_sendCmd`: the checks of the response, unless a wait has
failed before it came. -/
def checkResponse (t : CmdType) (reqId : U32) (status : S32) (m : Msg) : Reply t :=
  if status ≠ wire sok then ⟨status,none⟩
  else if m.len ≠ (response t).size then ⟨wire eunexpected,none⟩
  else
    let r := (response t).decode m.buf.bytes
    if reqId < r.1.resId then ⟨wire eunexpected,some r⟩ else ⟨r.1.status,some r⟩

/-- One turn of the loop in `CpswProxy_sendCmd` that waits for the response. -/
def pendMailbox (k : ClientCore) : Option Output × ClientCore :=
  match k.call,k.mbx with
  | some call,m :: ms =>
    if (resHdr.decode m.buf.bytes).resId < call.reqId then (none,{ k with mbx := ms })
    else
      let r := checkResponse call.cmd call.reqId call.status m
      (some (output call.cmd r),
        { k with
          clients := update k.clients call.client (saveToken call.cmd r (k.clients call.client))
          call := none
          mbx := ms })
  | _,_ => (none,k)

/-- The same turn when the wait times out or fails; `resId` is what the buffer
of the loop holds in the place of a response id. -/
def pendFails (k : ClientCore) (timedOut : Bool) (resId : U32) : Option Output × ClientCore :=
  match k.call with
  | none => (none,k)
  | some call =>
    let status := wire (if timedOut then etimeout else efail)
    if resId < call.reqId then (none,{ k with call := some { call with status := status } })
    else (some (output call.cmd ⟨status,none⟩),{ k with call := none })

/-- The server's task and the client cores. -/
structure State (σ Core : Type*) where
  /-- Server. -/
  server : ServerTask σ
  /-- Client cores. -/
  core : Core → ClientCore

/-- What happens in the system. -/
inductive Event (Core : Type*) where
  /-- A client object of a core gives a command, or its function refuses to. -/
  | call (p : Core) (c : Fin clientMax) (i : Except S32 Invocation) (st : S32)
  /-- The server takes the oldest request of a core and sends the response. -/
  | serve (p : Core) (stack : Buffer) (sent : Bool)
  /-- The server takes a request of another client. -/
  | foreign (p : Core) (endPt : U32) (hdr : MsgHdr) (reqId : U32) (i : Invocation)
      (stack : Buffer)
  /-- The server takes a message that is no request. -/
  | stray (a : Arrival Core)
  /-- The command handler task of a core takes the oldest response. -/
  | receive (p : Core) (posted : Bool)
  /-- It takes another message, from the server or not. -/
  | other (p : Core) (fromMaster : Bool) (m : Message)
  /-- The command of a core that holds the mutex waits on the mailbox. -/
  | pend (p : Core)
  /-- Its wait times out or fails. -/
  | pendFails (p : Core) (timedOut : Bool) (resId : U32)

/-- A message with a header of some type but the given one. -/
def NotType (t : U32) (m : Message) : Prop :=
  msgHdr.size ≤ m.bytes.length ∧ (msgHdr.decode m.bytes).msgType ≠ t

instance (t : U32) (m : Message) : Decidable (NotType t m) := inferInstanceAs (Decidable (_ ∧ _))

variable {σ Core Client : Type*} [DecidableEq Core] (cb : Callbacks σ Core Client)
  (endPt : Core → U32)

/-- The server takes the oldest request of a core and sends its response, if
the sending succeeds. -/
def serveStep (s : State σ Core) (p : Core) (stack : Buffer) (sent : Bool) : State σ Core :=
  match (s.core p).toServer with
  | [] => s
  | m :: ms =>
    let r := remoteClientEthDriverTaskFxn cb s.server ⟨p,endPt p,m,stack⟩
    { server := r.2
      core := update s.core p
        { s.core p with toServer := ms, toClient :=
          (s.core p).toClient ++ if sent then r.1.toList else [] } }

/-- The command handler task of a core takes the oldest response. -/
def receiveStep (k : ClientCore) (posted : Bool) : ClientCore :=
  match k.toClient with
  | [] => k
  | m :: ms => cmdHandlerTask { k with toClient := ms } true posted m

/-- One event, with what the function of a command returns. -/
def step (s : State σ Core) : Event Core → Option Output × State σ Core
  | .call p c (.ok i) st =>
    let r := sendCmd (s.core p) c i st
    (r.1,{ s with core := update s.core p r.2 })
  | .call _ _ (.error e) _ => (some (.status e),s)
  | .serve p stack sent => (none,serveStep cb endPt s p stack sent)
  | .foreign p e hdr reqId i stack =>
    let m := requestMsg i.cmd ⟨{ hdr with msgType := msgTypeRequest },code i.cmd,reqId⟩ i.params
    (none,{ s with server := (remoteClientEthDriverTaskFxn cb s.server ⟨p,e,m,stack⟩).2 })
  | .stray a =>
    (none,if NotType msgTypeRequest a.msg then
      { s with server := (remoteClientEthDriverTaskFxn cb s.server a).2 } else s)
  | .receive p posted =>
    (none,{ s with core := update s.core p (receiveStep (s.core p) posted) })
  | .other p fromMaster m =>
    (none,if fromMaster = true → NotType msgTypeResponse m then
      { s with core := update s.core p (cmdHandlerTask (s.core p) fromMaster true m) }
    else s)
  | .pend p =>
    let r := pendMailbox (s.core p)
    (r.1,{ s with core := update s.core p r.2 })
  | .pendFails p timedOut resId =>
    let r := pendFails (s.core p) timedOut resId
    (r.1,{ s with core := update s.core p r.2 })

/-- Where the command that holds the mutex of a core is. -/
inductive Phase where
  /-- No command holds the mutex. -/
  | idle
  /-- The server has not served it; the token and id are those it was sent with. -/
  | sent (c : Fin clientMax) (token reqId : U32) (i : Invocation)
  /-- The server has served it; its response is in the mailbox or on the way. -/
  | served (c : Fin clientMax) (cmd : CmdType) (token reqId : U32) (status : S32)
      (out : ResParams cmd) (posted : Bool)
  /-- The server has served it; its response is lost. -/
  | lost (c : Fin clientMax) (cmd : CmdType) (reqId : U32)

/-- A client core whose commands are values. -/
structure DirectCore where
  /-- Client objects. -/
  clients : Fin clientMax → Proxy
  /-- Command under way. -/
  phase : Phase

/-- The server's state and the client cores. -/
structure Direct (σ Core : Type*) where
  /-- State of the server. -/
  server : σ
  /-- Client cores. -/
  core : Core → DirectCore

/-- A command starts, or its request is not sent. -/
def DirectCore.send (k : DirectCore) (c : Fin clientMax) (i : Invocation) (st : S32) :
    Option Output × DirectCore :=
  match k.phase with
  | .idle =>
    let p := k.clients c
    let clients := update k.clients c { p with reqId := p.reqId + 1#32 }
    if st = wire sok then (none,⟨clients,.sent c p.token p.reqId i⟩)
    else (some (output i.cmd ⟨st,none⟩),⟨clients,.idle⟩)
  | _ => (none,k)

/-- The response of a served command reaches the mailbox, or is lost. -/
def DirectCore.post (k : DirectCore) (posted : Bool) : DirectCore :=
  match k.phase with
  | .served c t token reqId status out false =>
    if posted then { k with phase := .served c t token reqId status out true }
    else { k with phase := .lost c t reqId }
  | _ => k

/-- Header of the response to a command. -/
def responseHdr (t : CmdType) (token reqId : U32) (status : S32) : ResHdr :=
  ⟨⟨token,clientIdRtos,msgTypeResponse⟩,code t,reqId,status⟩

/-- A command whose response is in the mailbox returns what the handler gave. -/
def DirectCore.pend (k : DirectCore) : Option Output × DirectCore :=
  match k.phase with
  | .served c t token reqId status out true =>
    let r : Reply t := ⟨status,some (responseHdr t token reqId status,out)⟩
    (some (output t r),⟨update k.clients c (saveToken t r (k.clients c)),.idle⟩)
  | _ => (none,k)

/-- A command whose response is lost ends when its wait fails. -/
def DirectCore.giveUp (k : DirectCore) (timedOut : Bool) (resId : U32) :
    Option Output × DirectCore :=
  match k.phase with
  | .lost _ t reqId =>
    if resId < reqId then (none,k)
    else (some (output t ⟨wire (if timedOut then etimeout else efail),none⟩),⟨k.clients,.idle⟩)
  | _ => (none,k)

/-- The server's handler serves the command of a core. -/
def directServe (s : Direct σ Core) (p : Core) (stack : Buffer) (sent : Bool) : Direct σ Core :=
  match (s.core p).phase with
  | .sent c token reqId i =>
    let r := serve cb s.server ⟨p,endPt p,clientIdRtos.setWidth 8,token⟩ i.cmd i.params
      ((response i.cmd).decode stack.bytes).2
    let phase : Phase :=
      if sent then .served c i.cmd r.token reqId r.status r.out false else .lost c i.cmd reqId
    { server := r.state, core := update s.core p { s.core p with phase := phase } }
  | _ => s

/-- One event when commands are values. -/
def directStep (s : Direct σ Core) : Event Core → Option Output × Direct σ Core
  | .call p c (.ok i) st =>
    let r := (s.core p).send c i st
    (r.1,{ s with core := update s.core p r.2 })
  | .call _ _ (.error e) _ => (some (.status e),s)
  | .serve p stack sent => (none,directServe cb endPt s p stack sent)
  | .foreign p e hdr _ i stack =>
    let r := serve cb s.server ⟨p,e,hdr.clientId.setWidth 8,hdr.token⟩ i.cmd i.params
      ((response i.cmd).decode stack.bytes).2
    (none,{ s with server := r.state })
  | .stray _ => (none,s)
  | .receive p posted => (none,{ s with core := update s.core p ((s.core p).post posted) })
  | .other _ _ _ => (none,s)
  | .pend p =>
    let r := (s.core p).pend
    (r.1,{ s with core := update s.core p r.2 })
  | .pendFails p timedOut resId =>
    let r := (s.core p).giveUp timedOut resId
    (r.1,{ s with core := update s.core p r.2 })

/-- A wait fails only when neither the request nor the response is on its way or
in the mailbox. -/
def FailsLate (s : State σ Core) : Event Core → Prop
  | .pendFails p _ _ =>
    (s.core p).toServer = [] ∧ (s.core p).toClient = [] ∧ (s.core p).mbx = []
  | _ => True

/-- The command under way is at the place that its phase names, and nothing
else is between the core and the server. -/
def Placed (k : ClientCore) : Phase → Prop
  | .idle => k.call = none ∧ k.toServer = [] ∧ k.toClient = [] ∧ k.mbx = []
  | .sent c token reqId i =>
    k.call = some ⟨c,i.cmd,reqId,wire sok⟩ ∧
      k.toServer = [requestMsg i.cmd ⟨⟨token,clientIdRtos,msgTypeRequest⟩,code i.cmd,reqId⟩
        i.params] ∧ k.toClient = [] ∧ k.mbx = []
  | .served c t token reqId status out false =>
    k.call = some ⟨c,t,reqId,wire sok⟩ ∧ k.toServer = [] ∧
      k.toClient = [responseMsg t (responseHdr t token reqId status) out] ∧ k.mbx = []
  | .served c t token reqId status out true =>
    k.call = some ⟨c,t,reqId,wire sok⟩ ∧ k.toServer = [] ∧ k.toClient = [] ∧
      ∃ m : Msg, k.mbx = [m] ∧ m.len = (response t).size ∧
        (response t).decode m.buf.bytes = (responseHdr t token reqId status,out)
  | .lost c t reqId =>
    (∃ st, k.call = some ⟨c,t,reqId,st⟩) ∧ k.toServer = [] ∧ k.toClient = [] ∧ k.mbx = []

/-- A client core and the same core with commands as values. -/
structure SameCore (k : ClientCore) (d : DirectCore) : Prop where
  /-- Client objects. -/
  clients : k.clients = d.clients
  /-- Command under way. -/
  placed : Placed k d.phase

/-- The system over bytes and over values. -/
structure Same (s : State σ Core) (d : Direct σ Core) : Prop where
  /-- State of the server. -/
  server : s.server.state = d.server
  /-- Client cores. -/
  core : ∀ p, SameCore (s.core p) (d.core p)

variable {k : ClientCore} {d : DirectCore}

/-- A command whose call is known holds the mutex. -/
theorem SameCore.call (h : SameCore k d) (hne : d.phase ≠ .idle) : ∃ call, k.call = some call := by
  obtain ⟨clients,phase⟩ := d
  obtain ⟨-,hplaced⟩ := h
  cases phase with
  | idle => exact absurd rfl hne
  | sent c token reqId i => exact ⟨_,hplaced.1⟩
  | served c t token reqId status out posted => cases posted <;> exact ⟨_,hplaced.1⟩
  | lost c t reqId =>
    obtain ⟨⟨st,hcall⟩,-⟩ := hplaced
    exact ⟨_,hcall⟩

/-- A command is sent alike. -/
theorem SameCore.send (h : SameCore k d) (c : Fin clientMax) (i : Invocation) (st : S32) :
    (sendCmd k c i st).1 = (d.send c i st).1 ∧ SameCore (sendCmd k c i st).2 (d.send c i st).2 := by
  have hbusy : ∀ call, k.call = some call → sendCmd k c i st = (none,k) := by
    intro call hcall
    simp only [sendCmd,hcall]
  have hsame := h
  obtain ⟨clients,phase⟩ := d
  obtain ⟨hclients,hplaced⟩ := h
  cases phase with
  | idle =>
    obtain ⟨hcall,hto,hfrom,hmbx⟩ := hplaced
    simp only [sendCmd,hcall,DirectCore.send]
    by_cases hst : st = wire sok
    · simp only [hst,if_true,true_and]
      exact ⟨by rw [hclients],by rw [hclients],by rw [hto,hclients]; rfl,hfrom,hmbx⟩
    · simp only [hst,if_false,true_and]
      exact ⟨by rw [hclients],rfl,hto,hfrom,hmbx⟩
  | sent c' token reqId i' =>
    obtain ⟨call,hcall⟩ := hsame.call fun hno => nomatch hno
    rw [hbusy call hcall]
    exact ⟨rfl,hsame⟩
  | served c' t token reqId status out posted =>
    obtain ⟨call,hcall⟩ := hsame.call fun hno => nomatch hno
    rw [hbusy call hcall]
    exact ⟨rfl,hsame⟩
  | lost c' t reqId =>
    obtain ⟨call,hcall⟩ := hsame.call fun hno => nomatch hno
    rw [hbusy call hcall]
    exact ⟨rfl,hsame⟩

/-- A response of the server is posted, whatever the receive buffer held. -/
theorem cmdHandlerTask_response (k : ClientCore) (posted : Bool) (t : CmdType) (token reqId : U32)
    (status : S32) (out : ResParams t) :
    let m := responseMsg t (responseHdr t token reqId status) out
    cmdHandlerTask k true posted m =
      { k with
        msgBuf := k.msgBuf.receive m
        mbx := k.mbx ++ if posted then [⟨(response t).size,k.msgBuf.receive m⟩] else [] } := by
  intro m
  have hdecode := decode_receive_response k.msgBuf t (responseHdr t token reqId status) out
  have hmsg : (msgHdr.decode (k.msgBuf.receive m).bytes).msgType = msgTypeResponse :=
    congrArg (fun r => r.1.common.msgType) hdecode
  have hlen : m.bytes.length = (response t).size := (response t).length_encode _
  cases posted with
  | true => simp only [cmdHandlerTask,hmsg,hlen,and_self,if_true]
  | false => simp [cmdHandlerTask]

/-- A message of another type or source only passes through the buffer. -/
theorem cmdHandlerTask_other {fromMaster : Bool} {m : Message}
    (h : fromMaster = true → NotType msgTypeResponse m) (k : ClientCore) :
    cmdHandlerTask k fromMaster true m = { k with msgBuf := k.msgBuf.receive m } := by
  have hother : ¬(fromMaster = true ∧
      (msgHdr.decode (k.msgBuf.receive m).bytes).msgType = msgTypeResponse ∧ true = true) := by
    rintro ⟨hmaster,htype,-⟩
    obtain ⟨hlen,hne⟩ := h hmaster
    exact hne ((congrArg MsgHdr.msgType (msgHdr.decode_overlay hlen)).symm.trans htype)
  rw [cmdHandlerTask,if_neg hother]

/-- A response is posted alike. -/
theorem SameCore.post (h : SameCore k d) (posted : Bool) :
    SameCore (receiveStep k posted) (d.post posted) := by
  obtain ⟨clients,phase⟩ := d
  obtain ⟨hclients,hplaced⟩ := h
  cases phase with
  | idle =>
    simp only [receiveStep,hplaced.2.2.1,DirectCore.post]
    exact ⟨hclients,hplaced⟩
  | sent c token reqId i =>
    simp only [receiveStep,hplaced.2.2.1,DirectCore.post]
    exact ⟨hclients,hplaced⟩
  | lost c t reqId =>
    simp only [receiveStep,hplaced.2.2.1,DirectCore.post]
    exact ⟨hclients,hplaced⟩
  | served c t token reqId status out arrived =>
    cases arrived with
    | true =>
      simp only [receiveStep,hplaced.2.2.1,DirectCore.post]
      exact ⟨hclients,hplaced⟩
    | false =>
      obtain ⟨hcall,hto,hfrom,hmbx⟩ := hplaced
      simp only [receiveStep,hfrom,DirectCore.post,cmdHandlerTask_response,hmbx]
      cases posted with
      | true => exact ⟨hclients,hcall,hto,rfl,_,rfl,rfl,decode_receive_response _ _ _ _⟩
      | false => exact ⟨hclients,⟨_,hcall⟩,hto,rfl,rfl⟩

/-- Other messages leave a core as it is. -/
theorem SameCore.other {fromMaster : Bool} {m : Message} (h : SameCore k d)
    (hm : fromMaster = true → NotType msgTypeResponse m) :
    SameCore (cmdHandlerTask k fromMaster true m) d := by
  obtain ⟨clients,phase⟩ := d
  obtain ⟨hclients,hplaced⟩ := h
  rw [cmdHandlerTask_other hm]
  refine ⟨hclients,?_⟩
  cases phase with
  | idle => exact hplaced
  | sent c token reqId i => exact hplaced
  | lost c t reqId => exact hplaced
  | served c t token reqId status out posted => cases posted <;> exact hplaced

/-- A command returns the same and leaves the same client objects. -/
theorem SameCore.pend (h : SameCore k d) :
    (pendMailbox k).1 = d.pend.1 ∧ SameCore (pendMailbox k).2 d.pend.2 := by
  obtain ⟨clients,phase⟩ := d
  obtain ⟨hclients,hplaced⟩ := h
  cases phase with
  | idle =>
    simp only [pendMailbox,hplaced.1,DirectCore.pend]
    exact ⟨trivial,hclients,hplaced⟩
  | sent c token reqId i =>
    simp only [pendMailbox,hplaced.1,hplaced.2.2.2,DirectCore.pend]
    exact ⟨trivial,hclients,hplaced⟩
  | lost c t reqId =>
    obtain ⟨st,hcall⟩ := hplaced.1
    simp only [pendMailbox,hcall,hplaced.2.2.2,DirectCore.pend]
    exact ⟨trivial,hclients,hplaced⟩
  | served c t token reqId status out posted =>
    cases posted with
    | false =>
      simp only [pendMailbox,hplaced.1,hplaced.2.2.2,DirectCore.pend]
      exact ⟨trivial,hclients,hplaced⟩
    | true =>
      obtain ⟨hcall,hto,hfrom,m,hmbx,hlen,hdecode⟩ := hplaced
      have hhdr : resHdr.decode m.buf.bytes = responseHdr t token reqId status :=
        congrArg Prod.fst hdecode
      have hreply : checkResponse t reqId (wire sok) m =
          ⟨status,some (responseHdr t token reqId status,out)⟩ := by
        simp only [checkResponse,hlen,hdecode,responseHdr,ne_eq,not_true,if_false,BitVec.lt_irrefl]
      simp only [pendMailbox,hcall,hmbx,hhdr,hreply,DirectCore.pend,responseHdr,BitVec.lt_irrefl,
        if_false]
      exact ⟨trivial,by rw [hclients],rfl,hto,hfrom,rfl⟩

/-- A command whose wait fails late gives up alike. -/
theorem SameCore.giveUp (h : SameCore k d)
    (hlate : k.toServer = [] ∧ k.toClient = [] ∧ k.mbx = []) (timedOut : Bool) (resId : U32) :
    (pendFails k timedOut resId).1 = (d.giveUp timedOut resId).1 ∧
      SameCore (pendFails k timedOut resId).2 (d.giveUp timedOut resId).2 := by
  obtain ⟨clients,phase⟩ := d
  obtain ⟨hclients,hplaced⟩ := h
  cases phase with
  | idle =>
    simp only [pendFails,hplaced.1,DirectCore.giveUp]
    exact ⟨trivial,hclients,hplaced⟩
  | sent c token reqId i =>
    rw [hplaced.2.1] at hlate
    exact absurd hlate.1 (List.cons_ne_nil _ _)
  | served c t token reqId status out posted =>
    cases posted with
    | false =>
      rw [hplaced.2.2.1] at hlate
      exact absurd hlate.2.1 (List.cons_ne_nil _ _)
    | true =>
      obtain ⟨-,-,-,m,hmbx,-⟩ := hplaced
      rw [hmbx] at hlate
      exact absurd hlate.2.2 (List.cons_ne_nil _ _)
  | lost c t reqId =>
    obtain ⟨⟨st,hcall⟩,hnone⟩ := hplaced
    simp only [pendFails,hcall,DirectCore.giveUp]
    by_cases hid : resId < reqId
    · rw [if_pos hid,if_pos hid]
      exact ⟨rfl,hclients,⟨_,rfl⟩,hnone⟩
    · rw [if_neg hid,if_neg hid]
      exact ⟨rfl,hclients,rfl,hnone⟩

/-- The server and one core are replaced with their counterparts. -/
theorem Same.update {s : State σ Core} {e : Direct σ Core} (h : Same s e) {v : ServerTask σ}
    {w : σ} (hserver : v.state = w) (p : Core) (hcore : SameCore k d) :
    Same ⟨v,update s.core p k⟩ ⟨w,update e.core p d⟩ := by
  refine ⟨hserver,fun p' => ?_⟩
  dsimp only
  by_cases hp : p' = p
  · rw [hp,update_self,update_self]
    exact hcore
  · rw [update_of_ne hp,update_of_ne hp]
    exact h.core p'

/-- The oldest request of a core is served alike. -/
theorem Same.serve {s : State σ Core} {e : Direct σ Core} (h : Same s e) (p : Core)
    (stack : Buffer) (sent : Bool) :
    Same (serveStep cb endPt s p stack sent) (directServe cb endPt e p stack sent) := by
  obtain ⟨hclients,hplaced⟩ := h.core p
  cases hphase : (e.core p).phase with
  | idle =>
    rw [hphase] at hplaced
    simp only [serveStep,hplaced.2.1,directServe,hphase]
    exact h
  | lost c t reqId =>
    rw [hphase] at hplaced
    simp only [serveStep,hplaced.2.1,directServe,hphase]
    exact h
  | served c t token reqId status out posted =>
    rw [hphase] at hplaced
    have hto : (s.core p).toServer = [] := by cases posted <;> exact hplaced.2.1
    simp only [serveStep,hto,directServe,hphase]
    exact h
  | sent c token reqId i =>
    rw [hphase] at hplaced
    obtain ⟨hcall,hto,hfrom,hmbx⟩ := hplaced
    have htask := task_request cb s.server p (endPt p) stack i.cmd
      ⟨⟨token,clientIdRtos,msgTypeRequest⟩,code i.cmd,reqId⟩ i.params rfl rfl
    have hid : (clientIdRtos.setWidth 8).setWidth 32 = clientIdRtos := by decide
    simp only [serveStep,hto,htask,directServe,hphase,h.server,hid,hfrom]
    cases sent with
    | true => exact h.update rfl p ⟨hclients,hcall,rfl,rfl,hmbx⟩
    | false => exact h.update rfl p ⟨hclients,⟨_,hcall⟩,rfl,rfl,hmbx⟩

/-- Every event does the same over bytes and over values. -/
theorem Same.step {s : State σ Core} {e : Direct σ Core} (h : Same s e) (a : Event Core)
    (hlate : FailsLate s a) :
    Same (step cb endPt s a).2 (directStep cb endPt e a).2 ∧
      (step cb endPt s a).1 = (directStep cb endPt e a).1 := by
  cases a with
  | call p c i st =>
    cases i with
    | error st => exact ⟨h,rfl⟩
    | ok i =>
      obtain ⟨hout,hcore⟩ := (h.core p).send c i st
      exact ⟨h.update h.server p hcore,hout⟩
  | serve p stack sent => exact ⟨h.serve cb endPt p stack sent,rfl⟩
  | foreign p pt hdr reqId i stack =>
    have htask := task_request cb s.server p pt stack i.cmd
      ⟨{ hdr with msgType := msgTypeRequest },code i.cmd,reqId⟩ i.params rfl rfl
    simp only [RemoteCalls.step,directStep,htask,h.server,and_true]
    exact ⟨rfl,h.core⟩
  | stray a =>
    refine ⟨?_,rfl⟩
    by_cases ha : NotType msgTypeRequest a.msg
    · have hdecode : msgHdr.decode (s.server.msgBuf.receive a.msg).bytes =
          msgHdr.decode a.msg.bytes := msgHdr.decode_overlay ha.1
      have hstate : (remoteClientEthDriverTaskFxn cb s.server a).2.state = e.server := by
        simp only [remoteClientEthDriverTaskFxn,hdecode,ha.2,if_false]
        exact h.server
      simp only [RemoteCalls.step,ha,if_true,directStep]
      exact ⟨hstate,h.core⟩
    · simp only [RemoteCalls.step,ha,if_false,directStep]
      exact h
  | receive p posted => exact ⟨h.update h.server p ((h.core p).post posted),rfl⟩
  | other p fromMaster m =>
    refine ⟨?_,rfl⟩
    by_cases hm : fromMaster = true → NotType msgTypeResponse m
    · have hsame := h.update h.server p ((h.core p).other hm)
      rw [update_eq_self] at hsame
      simp only [RemoteCalls.step,if_pos hm,directStep]
      exact hsame
    · simp only [RemoteCalls.step,if_neg hm,directStep]
      exact h
  | pend p => exact ⟨h.update h.server p (h.core p).pend.2,(h.core p).pend.1⟩
  | pendFails p timedOut resId =>
    obtain ⟨hout,hcore⟩ := (h.core p).giveUp hlate timedOut resId
    exact ⟨h.update h.server p hcore,hout⟩

/-- Cores without a command under way, over bytes and over values. -/
def start (server : ServerTask σ) (clients : Core → Fin clientMax → Proxy)
    (msgBuf : Core → Buffer) : State σ Core × Direct σ Core :=
  (⟨server,fun p => ⟨clients p,none,msgBuf p,[],[],[]⟩⟩,
    ⟨server.state,fun p => ⟨clients p,.idle⟩⟩)

/-- Over every run whose waits fail late only, in every interleaving of the
cores, the functions of the client return over bytes what the server's handler
gives for the values, and the server goes through the same states. -/
theorem calls_direct (server : ServerTask σ) (clients : Core → Fin clientMax → Proxy)
    (msgBuf : Core → Buffer) (as : List (Event Core))
    (hG : Guarded (Lockstep.next (step cb endPt)) FailsLate (start server clients msgBuf).1 as) :
    let s := start server clients msgBuf
    Lockstep.log (step cb endPt) s.1 as = Lockstep.log (directStep cb endPt) s.2 as ∧
      (run (Lockstep.next (step cb endPt)) s.1 as).server.state =
        (run (Lockstep.next (directStep cb endPt)) s.2 as).server := by
  intro s
  have hstart : Same s.1 s.2 := ⟨rfl,fun _ => ⟨rfl,rfl,rfl,rfl,rfl⟩⟩
  have hagree := Lockstep.agree_of_guarded (R := Same) (s := s)
    (fun _ a h hlate => Same.step cb endPt h a hlate) hstart (Lockstep.guarded_both.mpr hG)
  exact ⟨hagree.log_eq,hagree.final.server⟩

section Runs

variable (p : Fin 2) (c : Fin clientMax)

/-- A command that is sent and served, and whose response is sent. -/
def asked (i : Invocation) : List (Event (Fin 2)) :=
  [.call p c (.ok i) (wire sok),.serve p (Buffer.fill 0xFF#8) true]

/-- Its response arrives, and the command returns. -/
def answered : List (Event (Fin 2)) := [.receive p true,.pend p]

/-- The first of two cores. -/
def coreA : Fin 2 := ⟨0,Nat.two_pos⟩

/-- The second one. -/
def coreB : Fin 2 := ⟨1,Nat.one_lt_two⟩

/-- The first client object of a core. -/
def firstClient : Fin clientMax := ⟨0,Nat.two_pos⟩

/-- Two cores attach at the same time; a wait of one of them fails over a lost
response while the other asks for its link, and a request is not sent. -/
def twoCores : List (Event (Fin 2)) :=
  asked coreA firstClient (attach 25#32) ++ asked coreB firstClient (attachExtended 27#32) ++
    answered coreB ++ answered coreA ++
    [.call coreB firstClient (.ok getServerStatus) (wire sok),
      .serve coreB (Buffer.fill 0#8) false] ++
    asked coreA firstClient isPhyLinked ++ answered coreA ++
    [.pendFails coreB true 0#32,.pendFails coreB true 9#32,
      .call coreB firstClient (.ok detach) (wire efail)]

/-- The calls of a server that has just been set up. -/
theorem calls_direct_two_cores :
    let cb : Callbacks (ProxyServerClients.World 2) (Fin 2) (Fin 2 × ProxyServerClients.Slot) :=
      tableCallbacks (ProxyServerRequests.plainOutcomes fun _ => 1518#32) 2#32 noRest
    let s := start (⟨ProxyServerClients.initServer 2 false [],Buffer.fill 0#8⟩ : ServerTask _)
      (fun (_ : Fin 2) _ => ⟨tokenNone,0#32,0#32⟩) fun _ => Buffer.fill 0#8
    Lockstep.log (step cb fun _ => 13#32) s.1 twoCores =
        Lockstep.log (directStep cb fun _ => 13#32) s.2 twoCores ∧
      (run (Lockstep.next (step cb fun _ => 13#32)) s.1 twoCores).server.state =
        (run (Lockstep.next (directStep cb fun _ => 13#32)) s.2 twoCores).server := by
  refine calls_direct _ _ _ _ _ twoCores ?_
  simp only [twoCores,asked,answered,List.cons_append,List.nil_append,guarded_cons,guarded_nil,
    FailsLate,true_and,and_true]
  exact ⟨⟨rfl,rfl,rfl⟩,rfl,rfl,rfl⟩

end Runs

end EthernetFirmware.RemoteCalls
