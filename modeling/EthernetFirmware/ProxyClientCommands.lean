import EthernetFirmware.ProxyServerRequests
import EthernetFirmware.GuardedRuns

/-!
# Proxy client commands

The command service of a client core, for the builds that pass responses
through a mailbox. The client objects of the core share one endpoint, one
mailbox and one mutex; each has its own token and counts its own request
ids. A command sends its request and then waits in a loop that drops
messages with a smaller id; a received response is posted to the mailbox
by the command handler task.

The server takes requests in the order they were sent and answers each
with a header made from the request. Its answers travel in any order and
may be lost, but only the server sends responses. Results of the IPC and
mailbox calls are inputs of the events. Request numbers, the ledger of
answers and the list of finished commands are kept for the proofs only.
-/

namespace EthernetFirmware.ProxyClientCommands

open RemoteConfig

/-- `CPSWPROXY_CLIENT_MAX`. -/
abbrev clientMax : ℕ := 2

/-- `CPSWPROXY_CMD_RES_MBX_MSGCOUNT`, the messages the mailbox holds. -/
def cmdResMbxMsgCount : ℕ := 4

/-- `ETHREMOTECFG_CLIENTID_RTOS`. -/
def clientIdRtos : U32 := 2#32

/-- `EthRemoteCfg_MsgType`. -/
inductive MsgType where
  /-- Command request. -/
  | request
  /-- Notification. -/
  | notify
  /-- Command response. -/
  | response
  deriving DecidableEq

/-- `EthRemoteCfg_MsgHdr`. -/
structure MsgHdr where
  /-- Token of the client. -/
  token : U32
  /-- Identity of the client's environment. -/
  clientId : U32
  /-- Kind of message. -/
  msgType : MsgType
  deriving DecidableEq

/-- `EthRemoteCfg_ReqHdr`. -/
structure ReqHdr where
  /-- Common header. -/
  common : MsgHdr
  /-- Request type. -/
  reqType : CmdType
  /-- Request id. -/
  reqId : U32
  deriving DecidableEq

/-- `EthRemoteCfg_ResHdr`. -/
structure ResHdr where
  /-- Common header. -/
  common : MsgHdr
  /-- Response type. -/
  resType : CmdType
  /-- Response id. -/
  resId : U32
  /-- Status of the request. -/
  status : Status
  deriving DecidableEq

/-- Request under way, numbered among all the requests of the core. -/
structure Request where
  /-- Number of requests sent before it. -/
  serial : ℕ
  /-- Header of the request. -/
  hdr : ReqHdr
  deriving DecidableEq

/-- `CpswProxy_Msg`: a message as the command service handles it. -/
structure Msg where
  /-- Actual message length. -/
  len : U16
  /-- Response header at the start of the buffer. -/
  hdr : ResHdr
  /-- Rest of the buffer. -/
  params : List U8
  deriving DecidableEq

/-- Core and endpoint a message comes from. -/
structure Source where
  /-- Core. -/
  procId : U32
  /-- Endpoint. -/
  endPt : U32
  deriving DecidableEq

/-- Message on its way to the command endpoint. -/
structure Wire where
  /-- Where it comes from. -/
  source : Source
  /-- Its contents. -/
  msg : Msg
  deriving DecidableEq

/-- Size of a response header. -/
def resHdrSize : U16 := 24#16

/-- Size of the response to each type of request: the packed header and
parameters, with enumerations of 32 bits. -/
def resLen : CmdType → U16
  | .virtPortInfo => resHdrSize + 8#16
  | .attach => resHdrSize + 20#16
  | .attachExt => resHdrSize + 34#16
  | .allocTx | .getServerStatus | .allocCptsHwPush => resHdrSize + 4#16
  | .allocRx => resHdrSize + 12#16
  | .allocMac => resHdrSize + 6#16
  | .portLinkStatus => resHdrSize + 9#16
  | _ => resHdrSize

/-- The two requests whose response carries a new token. -/
def attaches (t : CmdType) : Bool := decide (t = .attach) || decide (t = .attachExt)

/-- What the server decides about its answer to a request. -/
structure Answer where
  /-- Token of the client object an attach has taken. -/
  token : U32
  /-- Status of the request. -/
  status : Status
  /-- Response parameters. -/
  params : List U8

/-- Response built at the end of `CpswProxyServer_clientRequestHandler`. -/
def response (q : ReqHdr) (a : Answer) : Msg where
  len := resLen q.reqType
  hdr :=
    { common :=
        { token := if attaches q.reqType then a.token else q.common.token
          clientId := (q.common.clientId.setWidth 8).setWidth 32
          msgType := .response }
      resType := q.reqType
      resId := q.reqId
      status := a.status }
  params := a.params

/-- The request handler of the server copies the client identity, type and
id of a request into its response, and the token unless a port is
attached. -/
theorem clientRequestHandler_header {procs : ℕ} (w : ProxyServerClients.World procs)
    (x : ProxyServerRequests.Outcomes) (r : ProxyServerRequests.Request procs) :
    let a := (ProxyServerRequests.clientRequestHandler w x r).2
    a.clientId = r.clientId ∧ a.resType = r.cmd.reqType ∧ a.resId = r.reqId ∧
      (attaches r.cmd.reqType = false → a.token = r.token) := by
  cases hcmd : r.cmd with
  | virtPortInfo => simp [ProxyServerRequests.clientRequestHandler,hcmd,ProxyServerRequests.respond]
  | attach v =>
    cases ha : ProxyServerClients.allocClient w r.remoteProcId r.remoteEndPt v <;>
      simp [ProxyServerRequests.clientRequestHandler,ProxyServerRequests.serveAttach,hcmd,ha,
        ProxyServerRequests.respond,attaches,ProxyServerRequests.Cmd.reqType]
  | attachExt v =>
    cases ha : ProxyServerClients.allocClient w r.remoteProcId r.remoteEndPt v <;>
      simp [ProxyServerRequests.clientRequestHandler,ProxyServerRequests.serveAttach,hcmd,ha,
        ProxyServerRequests.respond,attaches,ProxyServerRequests.Cmd.reqType]
  | detach =>
    cases hg : ProxyServerClients.getClient w r.remoteProcId r.token <;>
      simp [ProxyServerRequests.clientRequestHandler,hcmd,hg,ProxyServerRequests.respond]
  | teardownCompletion =>
    cases hg : ProxyServerClients.getClient w r.remoteProcId r.token <;>
      simp [ProxyServerRequests.clientRequestHandler,hcmd,hg,ProxyServerRequests.respond]

/-- The answers of the modelled request handler are answers here: a client's
request gets the header the handler builds. -/
theorem response_clientRequestHandler {procs : ℕ} (w : ProxyServerClients.World procs)
    (x : ProxyServerRequests.Outcomes) (r : ProxyServerRequests.Request procs) (q : ReqHdr)
    (params : List U8) (hclient : q.common.clientId.setWidth 8 = r.clientId)
    (htoken : q.common.token = r.token) (htype : q.reqType = r.cmd.reqType)
    (hid : q.reqId = r.reqId) :
    let a := (ProxyServerRequests.clientRequestHandler w x r).2
    (response q ⟨a.token,a.status,params⟩).hdr =
      ⟨⟨a.token,a.clientId.setWidth 32,.response⟩,a.resType,a.resId,a.status⟩ := by
  obtain ⟨hc,ht,hi,hk⟩ := clientRequestHandler_header w x r
  simp only [response,hc,ht,hi,hclient,htype,hid]
  congr 2
  cases hatt : attaches r.cmd.reqType with
  | true => rfl
  | false => exact htoken.trans (hk hatt).symm

/-- `CpswProxy_ClientObj`: the fields a command uses. -/
structure Proxy where
  /-- Token used after attaching. -/
  token : U32
  /-- Id of the next request. -/
  reqId : U32

/-- Command that holds the mutex: what `CpswProxy_sendCmd` keeps. -/
structure Call where
  /-- Client object the command belongs to. -/
  client : Fin clientMax
  /-- Request sent. -/
  req : Request
  /-- Length of the caller's response. -/
  resLen : U16
  /-- Status so far. -/
  status : Status
  /-- Local message buffer. -/
  msg : Msg

/-- Finished command. -/
structure Return where
  /-- Request sent. -/
  req : Request
  /-- Status returned. -/
  status : Status
  /-- Message copied into the caller's response, if any. -/
  res : Option Msg
  deriving DecidableEq

/-- A client core, the server and the messages between them. -/
structure State where
  /-- Client objects. -/
  clients : Fin clientMax → Proxy
  /-- Core and endpoint of the server. -/
  master : Source
  /-- Command that holds the mutex. -/
  call : Option Call
  /-- Requests the server has not answered, in order. -/
  toServer : List Request
  /-- Messages on their way to the command endpoint. -/
  net : List Wire
  /-- Command response mailbox. -/
  mbx : List Msg
  /-- Number of requests sent. -/
  sent : ℕ
  /-- Every answer of the server with the request it was produced for. -/
  served : List (Request × Msg)
  /-- Finished commands. -/
  returned : List Return

/-- Result of a wait on the mailbox. -/
inductive Pend where
  /-- The oldest message was taken out. -/
  | success
  /-- No message came in time. -/
  | timeout
  /-- The wait failed. -/
  | failure
  deriving DecidableEq

/-- What happens at the client core and around it. -/
inductive Event where
  /-- A client object is closed and opened again. -/
  | instanceInit (c : Fin clientMax)
  /-- A command starts; `sendStatus` is the result of sending its request
  and `stack` what its message buffer holds at first. -/
  | sendCmd (c : Fin clientMax) (reqType : CmdType) (resLen : U16) (sendStatus : Status)
      (stack : Msg)
  /-- The command that holds the mutex waits on the mailbox once. -/
  | pend (p : Pend)
  /-- The server answers the oldest request. -/
  | serve (a : Answer)
  /-- Any message but a response of the server is sent to the endpoint. -/
  | other (w : Wire)
  /-- A message on its way is received by the command handler task. -/
  | receive (i : ℕ)
  /-- A message on its way is lost. -/
  | lose (i : ℕ)

/-- `CpswProxy_instanceInit`. -/
def instanceInit (s : State) (c : Fin clientMax) : State :=
  { s with clients := Function.update s.clients c ⟨tokenNone,0#32⟩ }

/-- Status and copied message of a command whose wait is over. -/
def result (k : Call) : Status × Option Msg :=
  if k.status = sok then
    if k.msg.len ≠ k.resLen then (eunexpected,none)
    else if k.req.hdr.reqId < k.msg.hdr.resId then (eunexpected,some k.msg)
    else (k.msg.hdr.status,some k.msg)
  else (k.status,none)

/-- The attach commands keep the token of a successful response. -/
def saveToken (clients : Fin clientMax → Proxy) (k : Call) : Fin clientMax → Proxy :=
  match result k with
  | (status,some m) =>
    if status = sok ∧ attaches k.req.hdr.reqType then
      Function.update clients k.client { clients k.client with token := m.hdr.common.token }
    else clients
  | (_,none) => clients

/-- A command releases the mutex and returns. -/
def returnCmd (s : State) (k : Call) : State :=
  { s with
    clients := saveToken s.clients k
    call := none
    returned := s.returned ++ [⟨k.req,(result k).1,(result k).2⟩] }

/-- Request header filled in by `CpswProxy_sendCmd`. -/
def request (s : State) (c : Fin clientMax) (reqType : CmdType) : Request where
  serial := s.sent
  hdr :=
    { common := { token := (s.clients c).token, clientId := clientIdRtos, msgType := .request }
      reqType := reqType
      reqId := (s.clients c).reqId }

/-- The client object counts one request. -/
def countRequest (s : State) (c : Fin clientMax) : State :=
  { s with
    clients := Function.update s.clients c
      { s.clients c with reqId := (s.clients c).reqId + 1#32 }
    sent := s.sent + 1 }

/-- First part of `CpswProxy_sendCmd`: take the mutex, count the request
and send it. A command waits while another one holds the mutex. -/
def sendCmd (s : State) (c : Fin clientMax) (reqType : CmdType) (resLen : U16)
    (sendStatus : Status) (stack : Msg) : State :=
  match s.call with
  | some _ => s
  | none =>
    let k : Call := ⟨c,request s c reqType,resLen,sendStatus,stack⟩
    if sendStatus = sok then
      { countRequest s c with call := some k, toServer := s.toServer ++ [k.req] }
    else returnCmd (countRequest s c) k

/-- `EthFwOsal_pendMailbox` with the status update after it; nothing when
the wait goes on. -/
def pendMailbox (mbx : List Msg) (k : Call) : Pend → Option (Call × List Msg)
  | .success =>
    match mbx with
    | [] => none
    | m :: ms => some ({ k with msg := m },ms)
  | .timeout => some ({ k with status := etimeout },mbx)
  | .failure => some ({ k with status := efail },mbx)

/-- One turn of the loop that waits for the response. -/
def waitResponse (s : State) (p : Pend) : State :=
  match s.call with
  | none => s
  | some k =>
    match pendMailbox s.mbx k p with
    | none => s
    | some (k',ms) =>
      if k'.msg.hdr.resId < k'.req.hdr.reqId then { s with call := some k', mbx := ms }
      else returnCmd { s with mbx := ms } k'

/-- The server answers the oldest request. -/
def serve (s : State) (a : Answer) : State :=
  match s.toServer with
  | [] => s
  | q :: qs =>
    { s with
      toServer := qs
      net := s.net ++ [⟨s.master,response q.hdr a⟩]
      served := s.served ++ [(q,response q.hdr a)] }

/-- `CpswProxy_cmdHandler`: post the message to the mailbox. -/
def cmdHandler (s : State) (m : Msg) : State := { s with mbx := s.mbx ++ [m] }

/-- `CpswProxy_cmdHandlerTask` for one received message. Notifications go
to their callbacks; other types and sources are errors. -/
def cmdHandlerTask (s : State) (w : Wire) : State :=
  if w.source ≠ s.master then s
  else
    match w.msg.hdr.common.msgType with
    | .response => cmdHandler s w.msg
    | .notify => s
    | .request => s

/-- A message that the task posts to the mailbox. -/
def isResponse (s : State) (w : Wire) : Bool :=
  decide (w.source = s.master) && decide (w.msg.hdr.common.msgType = .response)

/-- The task takes a message; it waits while the mailbox is full. -/
def receive (s : State) (i : ℕ) : State :=
  match s.net[i]? with
  | none => s
  | some w =>
    if s.mbx.length < cmdResMbxMsgCount then
      cmdHandlerTask { s with net := s.net.eraseIdx i } w
    else s

/-- One event. -/
def step (s : State) : Event → State
  | .instanceInit c => instanceInit s c
  | .sendCmd c reqType resLen sendStatus stack => sendCmd s c reqType resLen sendStatus stack
  | .pend p => waitResponse s p
  | .serve a => serve s a
  | .other w => if isResponse s w then s else { s with net := s.net ++ [w] }
  | .receive i => receive s i
  | .lose i => { s with net := s.net.eraseIdx i }

/-- A client core with its objects just opened and nothing under way. -/
def start (master : Source) : State where
  clients := fun _ => ⟨tokenNone,0#32⟩
  master := master
  call := none
  toServer := []
  net := []
  mbx := []
  sent := 0
  served := []
  returned := []

end EthernetFirmware.ProxyClientCommands
