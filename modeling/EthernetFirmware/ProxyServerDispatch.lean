import EthernetFirmware.ProxyClientCommands
import EthernetFirmware.RemoteConfigMessages
import EthernetFirmware.Lockstep

/-!
# Request handling of the server over bytes

The task of the server that receives messages, and the request handler it
calls: the command is found by the number in the header, its parameters are
read from the receive buffer, and the response is written into a buffer on
the stack. The task keeps one receive buffer, so a short message leaves the
end of earlier ones behind it.

The callbacks of the commands are parameters. `serve` is the handler on
values; the handler on bytes agrees with it.
-/

namespace EthernetFirmware.ProxyServerDispatch

open PackedRecords RemoteConfig RemoteConfigMessages GuardedRuns

/-- Buffer for one message. -/
@[ext]
structure Buffer where
  /-- Contents. -/
  bytes : List U8
  /-- The size is that of the largest message. -/
  length_eq : bytes.length = ipcMsgSize

/-- A buffer with one byte all over. -/
def Buffer.fill (b : U8) : Buffer := ⟨List.replicate ipcMsgSize b,List.length_replicate⟩

/-- Message on its way. -/
@[ext]
structure Message where
  /-- Contents. -/
  bytes : List U8
  /-- A message fits in a buffer. -/
  length_le : bytes.length ≤ ipcMsgSize

/-- `EthFwIpc_recvRpmsg`: the message is copied to the start of the buffer. -/
def Buffer.receive (b : Buffer) (m : Message) : Buffer :=
  ⟨overlay m.bytes b.bytes,(length_overlay (by rw [b.length_eq]; exact m.length_le)).trans
    b.length_eq⟩

/-- `EthFwIpc_sendRpmsg`: the first bytes of a buffer. -/
def Buffer.send (b : Buffer) (len : ℕ) (h : len ≤ ipcMsgSize) : Message :=
  ⟨b.bytes.take len,(List.length_take_le len _).trans h⟩

/-- Message of a request: every field is filled in before it is sent. -/
def requestMsg (t : CmdType) (h : ReqHdr) (q : ReqParams t) : Message :=
  ⟨(request t).encode (h,q),by rw [Layout.length_encode]; exact request_size_le t⟩

/-- Message of a response. -/
def responseMsg (t : CmdType) (h : ResHdr) (out : ResParams t) : Message :=
  ⟨(response t).encode (h,out),by rw [Layout.length_encode]; exact response_size_le t⟩

/-- A status as the cores exchange it. -/
def wire (s : Status) : S32 := BitVec.ofInt 32 s

/-- What a callback leaves. -/
structure Result (σ ρ : Type*) where
  /-- Status it returns. -/
  status : S32
  /-- Out parameters, with their old values where it does not write them. -/
  out : ρ
  /-- State after it. -/
  state : σ

/-- The functions of the server that the request handler calls. -/
structure Callbacks (σ Core Client : Type*) where
  /-- `CpswProxyServer_allocClient`, from the core, its endpoint and the port. -/
  allocClient : σ → Core → U32 → U32 → Option (Client × σ)
  /-- `CpswProxyServer_freeClient`. -/
  freeClient : σ → Client → σ
  /-- `CpswProxyServer_getClient`, from the core and the token. -/
  getClient : σ → Core → U32 → Option Client
  /-- Token of a client object. -/
  token : σ → Client → U32
  /-- Client identity stored in a client object. -/
  setClientId : σ → Client → U8 → σ
  /-- Client object marked idle. -/
  setIdle : σ → Client → σ
  /-- `EthFw_getStatus`. -/
  getStatus : σ → U32
  /-- `CpswProxyServer_VirtPortAllocCb`, from the client identity and core. -/
  virtPortAllocCb : σ → U8 → Core → OfferVirtPortRes → S32 × OfferVirtPortRes
  /-- Callback of every other command, from the client object, if it gets
  one, the core, the request and the response buffer. -/
  handlerCb : (t : CmdType) → σ → Option Client → Core → ReqParams t → ResParams t →
    Result σ (ResParams t)

/-- What the request handler knows of the sender. -/
structure Sender (Core : Type*) where
  /-- Core the message came from. -/
  remoteProcId : Core
  /-- Endpoint the message came from. -/
  remoteEndPt : U32
  /-- Client identity of the header, cut to a byte. -/
  clientId : U8
  /-- Token of the header. -/
  token : U32

/-- What the request handler leaves. -/
structure Served (σ : Type*) (t : CmdType) where
  /-- Token of the response. -/
  token : U32
  /-- Status of the response. -/
  status : S32
  /-- Response parameters. -/
  out : ResParams t
  /-- State after the request. -/
  state : σ

variable {σ Core Client : Type*} (cb : Callbacks σ Core Client)

/-- The two attach commands: a client object is taken, and the response
carries the token the callback leaves in it. -/
def serveAttach (t : CmdType) (s : σ) (sender : Sender Core) (virtPort : U32) (q : ReqParams t)
    (out : ResParams t) : Served σ t :=
  match cb.allocClient s sender.remoteProcId sender.remoteEndPt virtPort with
  | none => ⟨sender.token,wire ealloc,out,s⟩
  | some (c,s') =>
    let r := cb.handlerCb t s' (some c) sender.remoteProcId q out
    ⟨cb.token r.state c,r.status,r.out,cb.setClientId r.state c sender.clientId⟩

/-- A command of an attached client; the client object is looked up by the
token, and `err` is the status without one. -/
def serveClient (t : CmdType) (err : Status) (after : σ → Client → σ) (s : σ)
    (sender : Sender Core) (q : ReqParams t) (out : ResParams t) : Served σ t :=
  match cb.getClient s sender.remoteProcId sender.token with
  | none => ⟨sender.token,wire err,out,s⟩
  | some c =>
    let r := cb.handlerCb t s (some c) sender.remoteProcId q out
    ⟨sender.token,r.status,r.out,after r.state c⟩

/-- A command that needs no client object. -/
def serveAny (t : CmdType) (s : σ) (sender : Sender Core) (q : ReqParams t) (out : ResParams t) :
    Served σ t :=
  let r := cb.handlerCb t s none sender.remoteProcId q out
  ⟨sender.token,r.status,r.out,r.state⟩

/-- `CpswProxyServer_clientRequestHandler` on the values of a request. -/
def serve (s : σ) (sender : Sender Core) : (t : CmdType) → ReqParams t → ResParams t → Served σ t
  | .virtPortInfo,_,out =>
    let r := cb.virtPortAllocCb s sender.clientId sender.remoteProcId out
    ⟨sender.token,r.1,r.2,s⟩
  | .attach,q,out => serveAttach cb .attach s sender (AttachReq.virtPort q) q out
  | .attachExt,q,out => serveAttach cb .attachExt s sender (AttachReq.virtPort q) q out
  | .detach,q,out => serveClient cb .detach einvalidParams cb.freeClient s sender q out
  | .registerRemoteTimer,q,out => serveAny cb .registerRemoteTimer s sender q out
  | .deregisterRemoteTimer,q,out => serveAny cb .deregisterRemoteTimer s sender q out
  | .getServerStatus,_,_ => ⟨sender.token,wire sok,⟨cb.getStatus s⟩,s⟩
  | .teardownCompletion,_,out =>
    match cb.getClient s sender.remoteProcId sender.token with
    | none => ⟨sender.token,wire efail,out,s⟩
    | some c => ⟨sender.token,wire sok,out,cb.setIdle s c⟩
  | t,q,out => serveClient cb t efail (fun s _ => s) s sender q out

/-- Response parameters written behind the place of the header. -/
def Buffer.putParams (b : Buffer) (t : CmdType) (out : ResParams t) : Buffer :=
  ⟨resHdr.writeAfter (resParams t) out b.bytes,(Layout.length_writeAfter
    (by rw [b.length_eq]; exact response_size_le t)).trans b.length_eq⟩

/-- A response header written at the start. -/
def Buffer.putHdr (b : Buffer) (h : ResHdr) : Buffer :=
  ⟨resHdr.write h b.bytes,(Layout.length_write (by rw [b.length_eq]; decide)).trans b.length_eq⟩

/-- `CpswProxyServer_clientRequestHandler`; `resBuf` is what the stack holds
where the response is built. -/
def clientRequestHandler (s : σ) (reqBuf resBuf : Buffer) (clientId : U8) (remoteProcId : Core)
    (remoteEndPt : U32) : Message × σ :=
  let hdr := reqHdr.decode reqBuf.bytes
  let header : U32 → S32 → ResHdr := fun token status =>
    ⟨⟨token,clientId.setWidth 32,msgTypeResponse⟩,hdr.reqType,hdr.reqId,status⟩
  match command hdr.reqType with
  | some t =>
    let r := serve cb s ⟨remoteProcId,remoteEndPt,clientId,hdr.common.token⟩ t
      ((request t).decode reqBuf.bytes).2 ((response t).decode resBuf.bytes).2
    (((resBuf.putParams t r.out).putHdr (header r.token r.status)).send (response t).size
      (response_size_le t),r.state)
  | none =>
    ((resBuf.putHdr (header hdr.common.token (wire efail))).send resHdr.size (by decide),s)

/-- The receiving task between two messages. -/
structure ServerTask (σ : Type*) where
  /-- State of the server. -/
  state : σ
  /-- Receive buffer. -/
  msgBuf : Buffer

/-- A message as the task receives it. -/
structure Arrival (Core : Type*) where
  /-- Core the message comes from. -/
  remoteProcId : Core
  /-- Endpoint the message comes from. -/
  remoteEndPt : U32
  /-- Message. -/
  msg : Message
  /-- What the stack holds where a response would be built. -/
  stack : Buffer

/-- `CpswProxyServer_remoteClientEthDriverTaskFxn` for one message, with the
response it sends back, if any. Only requests are handled. -/
def remoteClientEthDriverTaskFxn (k : ServerTask σ) (a : Arrival Core) :
    Option Message × ServerTask σ :=
  let msgBuf := k.msgBuf.receive a.msg
  let hdr := msgHdr.decode msgBuf.bytes
  if hdr.msgType = msgTypeRequest then
    let r := clientRequestHandler cb k.state msgBuf a.stack (hdr.clientId.setWidth 8)
      a.remoteProcId a.remoteEndPt
    (some r.1,⟨r.2,msgBuf⟩)
  else (none,⟨k.state,msgBuf⟩)

/-- A response header and its parameters are sent as one record. -/
theorem send_response (b : Buffer) (t : CmdType) (h : ResHdr) (out : ResParams t) :
    ((b.putParams t out).putHdr h).send (response t).size (response_size_le t) =
      responseMsg t h out := by
  have hsize : resHdr.size ≤ b.bytes.length := by rw [b.length_eq]; decide
  have hbytes : ((b.putParams t out).putHdr h).bytes = (response t).write (h,out) b.bytes :=
    Layout.write_writeAfter hsize
  apply Message.ext
  change ((b.putParams t out).putHdr h).bytes.take (response t).size = _
  rw [hbytes]
  exact Layout.take_write _ _ _

/-- The header of an answer is what the handler wrote, whatever the command. -/
theorem decode_putHdr (b : Buffer) (h : ResHdr) {n : ℕ} (hn : resHdr.size ≤ n)
    (hle : n ≤ ipcMsgSize) : resHdr.decode ((b.putHdr h).send n hle).bytes = h := by
  have hsize : resHdr.size ≤ (b.putHdr h).bytes.length := by rw [(b.putHdr h).length_eq]; decide
  rw [Buffer.send,Layout.decode_take _ hsize n hn]
  exact Layout.decode_write _ _ _

/-- A request is read back from the receive buffer, whatever it held. -/
theorem decode_receive_request (b : Buffer) (t : CmdType) (h : ReqHdr) (q : ReqParams t) :
    (request t).decode (b.receive (requestMsg t h q)).bytes = (h,q) :=
  (request t).decode_append (h,q) _

/-- A response is read back from the receive buffer, whatever it held. -/
theorem decode_receive_response (b : Buffer) (t : CmdType) (h : ResHdr) (out : ResParams t) :
    (response t).decode (b.receive (responseMsg t h out)).bytes = (h,out) :=
  (response t).decode_append (h,out) _

/-- A request with the header of its command is served on its values: the
receive buffer adds nothing to it, and the response is sent as one record. -/
theorem task_request (k : ServerTask σ) (p : Core) (e : U32) (stack : Buffer) (t : CmdType)
    (h : ReqHdr) (q : ReqParams t) (hm : h.common.msgType = msgTypeRequest)
    (ht : h.reqType = code t) :
    remoteClientEthDriverTaskFxn cb k ⟨p,e,requestMsg t h q,stack⟩ =
      let clientId := h.common.clientId.setWidth 8
      let r := serve cb k.state ⟨p,e,clientId,h.common.token⟩ t q
        ((response t).decode stack.bytes).2
      (some (responseMsg t ⟨⟨r.token,clientId.setWidth 32,msgTypeResponse⟩,h.reqType,h.reqId,
          r.status⟩ r.out),⟨r.state,k.msgBuf.receive (requestMsg t h q)⟩) := by
  have hreq := decode_receive_request k.msgBuf t h q
  have hhdr : reqHdr.decode (k.msgBuf.receive (requestMsg t h q)).bytes = h :=
    congrArg Prod.fst hreq
  have hmsg : msgHdr.decode (k.msgBuf.receive (requestMsg t h q)).bytes = h.common :=
    congrArg ReqHdr.common hhdr
  have hcmd : command h.reqType = some t := by rw [ht,command_code]
  simp only [remoteClientEthDriverTaskFxn,hmsg,hm,if_true,clientRequestHandler,hhdr,hcmd,hreq,
    send_response]

section Clients

open ProxyServerClients ProxyServerRequests

variable {procs : ℕ}

/-- Fields of the attach response that the handler has written. -/
def putAttach (p : AttachParams) (r : AttachRes) : AttachRes where
  rxMtu := p.rxMtu.getD r.rxMtu
  txMtu := p.txMtu.getD r.txMtu
  features := p.features.getD r.features
  numTxCh := p.numTxCh.getD r.numTxCh
  numRxFlow := p.numRxFlow.getD r.numRxFlow

/-- Fields of the extended attach response that the handler has written. -/
def putAttachExt (p : AttachParams) (r : AttachExtRes) : AttachExtRes where
  rxMtu := p.rxMtu.getD r.rxMtu
  txMtu := p.txMtu.getD r.txMtu
  rxFlowIdxBase := p.rxFlowIdxBase.getD r.rxFlowIdxBase
  rxFlowIdxOffset := p.rxFlowIdxOffset.getD r.rxFlowIdxOffset
  txPsilDstId := p.txPsilDstId.getD r.txPsilDstId
  macAddr := p.macAddr.getD r.macAddr
  features := p.features.getD r.features
  rxPsilSrcId := p.rxPsilSrcId.getD r.rxPsilSrcId

/-- Fields of the port offer that the handler has written. -/
def putMasks (m : Option PortMasks) (r : OfferVirtPortRes) : OfferVirtPortRes :=
  m.elim r fun m => ⟨m.switchPortMask,m.macPortMask⟩

/-- Callback of a command of an attached client, as far as it is modelled. -/
abbrev Rest (procs : ℕ) := (t : CmdType) → World procs → Option (Fin procs × Slot) → Fin procs →
  ReqParams t → ResParams t → Result (World procs) (ResParams t)

/-- Callbacks of the attach and detach commands; `x` is what the driver
returns, and `rest` are the callbacks of the remaining commands. -/
def tableHandler (x : Outcomes) (rest : Rest procs) (t : CmdType) (w : World procs)
    (c : Option (Fin procs × Slot)) (p : Fin procs) (q : ReqParams t) (out : ResParams t) :
    Result (World procs) (ResParams t) :=
  match t,c with
  | .attach,some c =>
    let h := attachHandlerCb w x p c.2 (AttachReq.virtPort q) true
    ⟨wire h.status,putAttach h.out out,h.world⟩
  | .attachExt,some c =>
    let h := attachExtHandlerCb w x p c.2 (AttachReq.virtPort q)
    ⟨wire h.status,putAttachExt h.out out,h.world⟩
  | .detach,_ =>
    let d := detachHandlerCb w x p
    ⟨wire d.2,out,d.1⟩
  | t,c => rest t w c p q out

/-- The callbacks on the client table. -/
def tableCallbacks (x : Outcomes) (status : U32) (rest : Rest procs) :
    Callbacks (World procs) (Fin procs) (Fin procs × Slot) where
  allocClient w p e v := (allocClient w p e v).map fun a => ((p,a.1),a.2)
  freeClient w c := freeClient w c.1 c.2
  getClient w p token := (getClient w p token).map fun i => (p,i)
  token w c := (w.client c.1 c.2).token
  setClientId w c id := w.modifyClient c.1 c.2 fun o => { o with clientId := id.setWidth 32 }
  setIdle w c := w.modifyClient c.1 c.2 fun o => { o with isIdle := true }
  getStatus _ := status
  virtPortAllocCb w id p out :=
    let a := virtPortAllocCb w.server id.toNat p
    (wire a.1,putMasks a.2 out)
  handlerCb := tableHandler x rest

/-- Request parameters of a modelled command. -/
def cmdParams : (c : Cmd) → ReqParams c.reqType
  | .virtPortInfo | .detach | .teardownCompletion => ()
  | .attach v | .attachExt v => AttachReq.mk v

/-- Response parameters after the modelled handler. -/
def putBody : (t : CmdType) → Body → ResParams t → ResParams t
  | .virtPortInfo,.portMasks m,out => putMasks m out
  | .attach,.attach p,out => putAttach p out
  | .attachExt,.attach p,out => putAttachExt p out
  | _,_,out => out

/-- The request handler of the client table is the one on values here. -/
theorem serve_clientRequestHandler (w : World procs) (x : Outcomes) (status : U32)
    (rest : Rest procs) (r : Request procs) (out : ResParams r.cmd.reqType) :
    let d := ProxyServerRequests.clientRequestHandler w x r
    serve (tableCallbacks x status rest) w ⟨r.remoteProcId,r.remoteEndPt,r.clientId,r.token⟩
        r.cmd.reqType (cmdParams r.cmd) out =
      ⟨d.2.token,wire d.2.status,putBody r.cmd.reqType d.2.body out,d.1⟩ := by
  obtain ⟨p,e,id,token,reqId,cmd⟩ := r
  cases cmd with
  | virtPortInfo => rfl
  | attach v =>
    change serveAttach _ .attach _ _ v _ _ = _
    cases ha : allocClient w p e v <;>
      simp only [serveAttach,tableCallbacks,ha,Option.map_none,Option.map_some,
        ProxyServerRequests.clientRequestHandler,ProxyServerRequests.serveAttach,respond] <;> rfl
  | attachExt v =>
    change serveAttach _ .attachExt _ _ v _ _ = _
    cases ha : allocClient w p e v <;>
      simp only [serveAttach,tableCallbacks,ha,Option.map_none,Option.map_some,
        ProxyServerRequests.clientRequestHandler,ProxyServerRequests.serveAttach,respond] <;> rfl
  | detach =>
    change serveClient _ .detach _ _ _ _ _ _ = _
    cases hg : getClient w p token <;>
      simp only [serveClient,tableCallbacks,hg,Option.map_none,Option.map_some,
        ProxyServerRequests.clientRequestHandler,respond] <;> rfl
  | teardownCompletion =>
    cases hg : getClient w p token <;>
      simp only [Cmd.reqType,cmdParams,serve,tableCallbacks,hg,Option.map_none,Option.map_some,
        ProxyServerRequests.clientRequestHandler,respond] <;> rfl

/-- Header of a request on the client table. -/
def tableReqHdr (r : Request procs) : ReqHdr :=
  ⟨⟨r.token,r.clientId.setWidth 32,msgTypeRequest⟩,code r.cmd.reqType,r.reqId⟩

/-- A request on the client table as a message arrives with it. -/
def tableArrival (r : Request procs) (stack : Buffer) : Arrival (Fin procs) :=
  ⟨r.remoteProcId,r.remoteEndPt,requestMsg r.cmd.reqType (tableReqHdr r) (cmdParams r.cmd),stack⟩

/-- Message of a response of the client table to a request. -/
def tableAnswer (r : Request procs) (stack : Buffer) (d : Response) : Message :=
  responseMsg r.cmd.reqType
    ⟨⟨d.token,d.clientId.setWidth 32,msgTypeResponse⟩,code d.resType,d.resId,wire d.status⟩
    (putBody r.cmd.reqType d.body ((response r.cmd.reqType).decode stack.bytes).2)

variable (status : U32) (rest : Rest procs)

/-- The task that receives the message of a request. -/
def byteStep (k : ServerTask (World procs)) (a : Event procs × Buffer) :
    Option Message × ServerTask (World procs) :=
  remoteClientEthDriverTaskFxn (tableCallbacks a.1.outcomes status rest) k
    (tableArrival a.1.request a.2)

/-- The request handler of the client table, with its response as a message. -/
def tableStep (w : World procs) (a : Event procs × Buffer) : Option Message × World procs :=
  (some (tableAnswer a.1.request a.2 (answer w a.1)),handle w a.1)

/-- One message does to the client table what its request does. -/
theorem byteStep_eq (k : ServerTask (World procs)) (a : Event procs × Buffer) :
    byteStep status rest k a =
      ((tableStep k.state a).1,⟨(tableStep k.state a).2,
        k.msgBuf.receive (tableArrival a.1.request a.2).msg⟩) := by
  obtain ⟨⟨x,r⟩,stack⟩ := a
  have hclient : (r.clientId.setWidth 32).setWidth 8 = r.clientId := by simp
  have hserve := serve_clientRequestHandler k.state x status rest r
    ((response r.cmd.reqType).decode stack.bytes).2
  have hhdr : (ProxyServerRequests.clientRequestHandler k.state x r).2.clientId = r.clientId ∧
      (ProxyServerRequests.clientRequestHandler k.state x r).2.resType = r.cmd.reqType ∧
      (ProxyServerRequests.clientRequestHandler k.state x r).2.resId = r.reqId :=
    let h := ProxyClientCommands.clientRequestHandler_header k.state x r
    ⟨h.1,h.2.1,h.2.2.1⟩
  rw [byteStep,tableArrival,task_request _ _ _ _ _ _ _ _ rfl rfl]
  simp only [tableReqHdr,hclient,hserve,tableStep,tableAnswer,answer,handle,hhdr.1,hhdr.2.1,
    hhdr.2.2]

/-- Over every run the messages of requests on the client table are answered
as the requests are, and leave the same table. -/
theorem run_byteStep (k : ServerTask (World procs)) (as : List (Event procs × Buffer)) :
    Lockstep.log (byteStep status rest) k as = Lockstep.log tableStep k.state as ∧
      (run (Lockstep.next (byteStep status rest)) k as).state =
        run (Lockstep.next tableStep) k.state as := by
  have hstep : ∀ (s : ServerTask (World procs) × World procs) a, s.1.state = s.2 →
      (Lockstep.both (byteStep status rest) tableStep s a).1.state =
          (Lockstep.both (byteStep status rest) tableStep s a).2 ∧
        Lockstep.SameAnswer (byteStep status rest) tableStep s a := by
    intro s a hs
    have h := byteStep_eq status rest s.1 a
    rw [Lockstep.both,Lockstep.next,Lockstep.next,Lockstep.SameAnswer,h,hs]
    exact ⟨rfl,rfl⟩
  have hagree := Lockstep.agree_of_step (R := fun (k : ServerTask (World procs)) w => k.state = w)
    (s := (k,k.state)) hstep rfl as
  exact ⟨hagree.log_eq,hagree.final⟩

/-- Callbacks that refuse every command. -/
def noRest : Rest procs := fun _ w _ _ _ out => ⟨wire enotSupported,out,w⟩

/-- An attach request for the first switch port. -/
def attachRequest : Request 1 := ⟨⟨0,Nat.one_pos⟩,13#32,2#8,tokenNone,0#32,.attach switchPort0⟩

/-- A detach request without a client. -/
def detachRequest : Request 1 := ⟨⟨0,Nat.one_pos⟩,13#32,2#8,tokenNone,1#32,.detach⟩

/-- Requests served by a client table that has just been set up. -/
def tableTask (k : ServerTask (World 1)) (a : Arrival (Fin 1)) :
    Option Message × ServerTask (World 1) :=
  remoteClientEthDriverTaskFxn
    (tableCallbacks (plainOutcomes fun _ => 1518#32) 0#32 noRest) k a

end Clients

/-- Every answer carries the identity, type and id of the request, and has
the length of the response to its command, or of a header for none. -/
theorem handler_answer (s : σ) (reqBuf resBuf : Buffer) (clientId : U8) (p : Core) (e : U32) :
    let a := (clientRequestHandler cb s reqBuf resBuf clientId p e).1
    let hdr := reqHdr.decode reqBuf.bytes
    let res := resHdr.decode a.bytes
    res.common.msgType = msgTypeResponse ∧ res.common.clientId = clientId.setWidth 32 ∧
      res.resType = hdr.reqType ∧ res.resId = hdr.reqId ∧
      a.bytes.length = ((command hdr.reqType).elim resHdr.size fun t => (response t).size) := by
  have hlen : ∀ (b : Buffer) (n : ℕ) (h : n ≤ ipcMsgSize), (b.send n h).bytes.length = n :=
    fun b n h => List.length_take_of_le (by rw [b.length_eq]; exact h)
  cases hc : command (reqHdr.decode reqBuf.bytes).reqType with
  | none => simp only [clientRequestHandler,hc,decode_putHdr _ _ le_rfl,hlen,Option.elim,and_self]
  | some t =>
    have hsize : resHdr.size ≤ (response t).size := Nat.le_add_right _ _
    simp only [clientRequestHandler,hc,decode_putHdr _ _ hsize,hlen,Option.elim,and_self]

/-- A message holds everything the task reads of it: its header, and for a
request the structure of its command. -/
def Message.Complete (m : Message) : Prop :=
  msgHdr.size ≤ m.bytes.length ∧
    ((msgHdr.decode m.bytes).msgType = msgTypeRequest →
      reqHdr.size ≤ m.bytes.length ∧
        ∀ t, command (reqHdr.decode m.bytes).reqType = some t →
          (request t).size ≤ m.bytes.length)

/-- The message of a request is complete. -/
theorem requestMsg_complete {t : CmdType} {h : ReqHdr} (ht : h.reqType = code t)
    (q : ReqParams t) : (requestMsg t h q).Complete := by
  have hlen : (requestMsg t h q).bytes.length = (request t).size := (request t).length_encode (h,q)
  have hhdr : reqHdr.size ≤ (request t).size := Nat.le_add_right _ _
  have hmsg : msgHdr.size ≤ reqHdr.size := Nat.le_add_right _ _
  have hdecode : reqHdr.decode (requestMsg t h q).bytes = h := reqHdr.decode_append h _
  refine ⟨by omega,fun _ => ⟨by omega,fun t' ht' => ?_⟩⟩
  rw [hdecode,ht,command_code] at ht'
  rw [hlen,Option.some.inj ht']

/-- What the task does with a complete message: the receive buffer plays no
part. -/
theorem task_complete {k : ServerTask σ} {a : Arrival Core} (h : a.msg.Complete) :
    remoteClientEthDriverTaskFxn cb k a =
      let r := remoteClientEthDriverTaskFxn cb ⟨k.state,Buffer.fill 0#8⟩ a
      (r.1,⟨r.2.state,k.msgBuf.receive a.msg⟩) := by
  obtain ⟨hmsg,hreq⟩ := h
  have hdecode : ∀ b : Buffer, msgHdr.decode (b.receive a.msg).bytes = msgHdr.decode a.msg.bytes :=
    fun b => msgHdr.decode_overlay hmsg
  simp only [remoteClientEthDriverTaskFxn,hdecode]
  by_cases hr : (msgHdr.decode a.msg.bytes).msgType = msgTypeRequest
  · obtain ⟨hhdr,hparams⟩ := hreq hr
    have hdecode' : ∀ b : Buffer,
        reqHdr.decode (b.receive a.msg).bytes = reqHdr.decode a.msg.bytes :=
      fun b => reqHdr.decode_overlay hhdr
    simp only [hr,if_true,clientRequestHandler,hdecode']
    cases hc : command (reqHdr.decode a.msg.bytes).reqType with
    | none => rfl
    | some t =>
      have hall : ∀ b : Buffer,
          (request t).decode (b.receive a.msg).bytes = (request t).decode a.msg.bytes :=
        fun b => (request t).decode_overlay (hparams t hc)
      simp only [hall]
  · simp only [hr,if_false]

/-- Complete messages are answered the same whatever the receive buffer holds
at first, over every run. -/
theorem run_complete {as : List (Arrival Core)} (h : ∀ a ∈ as, a.msg.Complete) {k k' : ServerTask σ}
    (hs : k.state = k'.state) :
    Lockstep.log (remoteClientEthDriverTaskFxn cb) k as =
        Lockstep.log (remoteClientEthDriverTaskFxn cb) k' as ∧
      (run (Lockstep.next (remoteClientEthDriverTaskFxn cb)) k as).state =
        (run (Lockstep.next (remoteClientEthDriverTaskFxn cb)) k' as).state := by
  induction as generalizing k k' with
  | nil => exact ⟨rfl,hs⟩
  | cons a as ih =>
    have hk := task_complete cb (k := k) (h a List.mem_cons_self)
    have hk' := task_complete cb (k := k') (h a List.mem_cons_self)
    have hanswer : (remoteClientEthDriverTaskFxn cb k a).1 =
        (remoteClientEthDriverTaskFxn cb k' a).1 := by rw [hk,hk',hs]
    have hstate : (remoteClientEthDriverTaskFxn cb k a).2.state =
        (remoteClientEthDriverTaskFxn cb k' a).2.state := by rw [hk,hk',hs]
    obtain ⟨hlog,hfinal⟩ := ih (fun a' ha' => h a' (List.mem_cons_of_mem _ ha')) hstate
    exact ⟨congrArg₂ List.cons (congrArg (Prod.mk a) hanswer) hlog,hfinal⟩

/-- Two attach requests and a detach request are answered the same, and leave
the same client table, out of an empty receive buffer and out of one full of
ones. -/
theorem run_complete_attach :
    let messages := [attachRequest,{ attachRequest with cmd := .attachExt 26#32 },
      { detachRequest with token := 2500#32 }].map fun r => tableArrival r (Buffer.fill 0#8)
    let server := ProxyServerClients.initServer 1 false []
    Lockstep.log tableTask ⟨server,Buffer.fill 0#8⟩ messages =
        Lockstep.log tableTask ⟨server,Buffer.fill 0xFF#8⟩ messages ∧
      (run (Lockstep.next tableTask) ⟨server,Buffer.fill 0#8⟩ messages).state =
        (run (Lockstep.next tableTask) ⟨server,Buffer.fill 0xFF#8⟩ messages).state :=
  run_complete _ (by
    intro a ha
    obtain ⟨r,-,rfl⟩ := List.mem_map.mp ha
    exact requestMsg_complete rfl _) rfl

/-- The receive buffer after a message. -/
theorem task_msgBuf (k : ServerTask σ) (a : Arrival Core) :
    (remoteClientEthDriverTaskFxn cb k a).2.msgBuf = k.msgBuf.receive a.msg := by
  rw [remoteClientEthDriverTaskFxn]
  dsimp only
  split <;> rfl

/-- A message that is shorter than the one before is handled as if that
one's end had been sent with it. -/
theorem shorter_message (k : ServerTask σ) (a a' : Arrival Core)
    (h : a'.msg.bytes.length ≤ a.msg.bytes.length) :
    let k' := (remoteClientEthDriverTaskFxn cb k a).2
    remoteClientEthDriverTaskFxn cb k' a' =
      remoteClientEthDriverTaskFxn cb k' { a' with
        msg := ⟨overlay a'.msg.bytes a.msg.bytes,
          (length_overlay h).trans_le a.msg.length_le⟩ } := by
  intro k'
  have hbuf : k'.msgBuf = k.msgBuf.receive a.msg := task_msgBuf cb k a
  have hsame : k'.msgBuf.receive a'.msg = k'.msgBuf.receive
      ⟨overlay a'.msg.bytes a.msg.bytes,(length_overlay h).trans_le a.msg.length_le⟩ := by
    rw [hbuf]
    apply Buffer.ext
    change overlay _ (overlay _ _) = overlay _ (overlay _ _)
    rw [overlay_overlay_of_length (length_overlay h),overlay_overlay]
  rw [remoteClientEthDriverTaskFxn,remoteClientEthDriverTaskFxn,hsame]

/-- An empty message after an attach request is served as the same request. -/
theorem shorter_message_empty :
    let k := (tableTask ⟨ProxyServerClients.initServer 1 false [],Buffer.fill 0#8⟩
      (tableArrival attachRequest (Buffer.fill 0#8))).2
    tableTask k ⟨0,14#32,⟨[],Nat.zero_le _⟩,Buffer.fill 0#8⟩ =
      tableTask k ⟨0,14#32,(tableArrival attachRequest (Buffer.fill 0#8)).msg,Buffer.fill 0#8⟩ :=
  shorter_message _ _ _ ⟨0,14#32,⟨[],Nat.zero_le _⟩,Buffer.fill 0#8⟩ (Nat.zero_le _)

/-- Commands that only a client object may give. -/
def needsClient (t : CmdType) : Bool :=
  decide (t ∉ [.virtPortInfo,.attach,.attachExt,.registerRemoteTimer,.deregisterRemoteTimer,
    .getServerStatus])

/-- A command that needs a client object fails without one and changes
nothing. -/
theorem serve_no_client {s : σ} (sender : Sender Core) {t : CmdType} (ht : needsClient t = true)
    (hg : cb.getClient s sender.remoteProcId sender.token = none) (q : ReqParams t)
    (out : ResParams t) :
    ∃ err < 0, serve cb s sender t q out = ⟨sender.token,wire err,out,s⟩ := by
  have hclient : ∀ (err : Status) (after : σ → Client → σ),
      serveClient cb t err after s sender q out = ⟨sender.token,wire err,out,s⟩ := by
    intro err after
    simp only [serveClient,hg]
  cases t with
  | virtPortInfo | attach | attachExt | registerRemoteTimer | deregisterRemoteTimer
  | getServerStatus => exact absurd ht (by decide)
  | detach => exact ⟨einvalidParams,by decide,hclient einvalidParams cb.freeClient⟩
  | teardownCompletion =>
    refine ⟨efail,by decide,?_⟩
    simp only [serve,hg]
  | _ => exact ⟨efail,by decide,hclient efail fun s _ => s⟩

/-- A message without a request the server accepts: it has another type, or
its command is unknown, or needs a client object that the token does not give. -/
def Rejected (s : σ) (a : Arrival Core) : Prop :=
  let hdr := reqHdr.decode a.msg.bytes
  (msgHdr.decode a.msg.bytes).msgType = msgTypeRequest →
    ∀ t, command hdr.reqType = some t →
      needsClient t = true ∧ cb.getClient s a.remoteProcId hdr.common.token = none

/-- A message holds its header, and for a request the request header. What
follows it may be cut. -/
def Message.HasHeader (m : Message) : Prop :=
  msgHdr.size ≤ m.bytes.length ∧
    ((msgHdr.decode m.bytes).msgType = msgTypeRequest → reqHdr.size ≤ m.bytes.length)

/-- A rejected message changes nothing, and is answered by a failure if it is
a request. -/
theorem task_rejected {k : ServerTask σ} {a : Arrival Core} (h : a.msg.HasHeader)
    (hr : Rejected cb k.state a) :
    (remoteClientEthDriverTaskFxn cb k a).2.state = k.state ∧
      ∀ w ∈ (remoteClientEthDriverTaskFxn cb k a).1,
        ∃ err < 0, (resHdr.decode w.bytes).status = wire err := by
  obtain ⟨hmsg,hreq⟩ := h
  have hdecode : msgHdr.decode (k.msgBuf.receive a.msg).bytes = msgHdr.decode a.msg.bytes :=
    msgHdr.decode_overlay hmsg
  by_cases hq : (msgHdr.decode a.msg.bytes).msgType = msgTypeRequest
  · have hdecode' : reqHdr.decode (k.msgBuf.receive a.msg).bytes = reqHdr.decode a.msg.bytes :=
      reqHdr.decode_overlay (hreq hq)
    cases hc : command (reqHdr.decode a.msg.bytes).reqType with
    | none =>
      simp only [remoteClientEthDriverTaskFxn,hdecode,hq,if_true,clientRequestHandler,hdecode',hc,
        Option.mem_some_iff,forall_eq',decode_putHdr _ _ le_rfl,true_and]
      exact ⟨efail,by decide,rfl⟩
    | some t =>
      obtain ⟨ht,hg⟩ := hr hq t hc
      have hsize : resHdr.size ≤ (response t).size := Nat.le_add_right _ _
      obtain ⟨err,hneg,hserve⟩ := serve_no_client cb
        ⟨a.remoteProcId,a.remoteEndPt,(msgHdr.decode a.msg.bytes).clientId.setWidth 8,
          (reqHdr.decode a.msg.bytes).common.token⟩ ht hg
        ((request t).decode (k.msgBuf.receive a.msg).bytes).2
        ((response t).decode a.stack.bytes).2
      simp only [remoteClientEthDriverTaskFxn,hdecode,hq,if_true,clientRequestHandler,hdecode',hc,
        hserve,Option.mem_some_iff,forall_eq',decode_putHdr _ _ hsize,true_and]
      exact ⟨err,hneg,rfl⟩
  · simp only [remoteClientEthDriverTaskFxn,hdecode,hq,if_false,true_and]
    exact fun w hw => absurd hw (Option.not_mem_none w)

/-- A message that ends with its request header. -/
def headerOnly (h : ReqHdr) : Message :=
  ⟨reqHdr.encode h,by rw [Layout.length_encode]; decide⟩

theorem decode_headerOnly (h : ReqHdr) : reqHdr.decode (headerOnly h).bytes = h := by
  have happend := reqHdr.decode_append h []
  rw [List.append_nil] at happend
  exact happend

/-- A request to join a VLAN without a client, cut behind its header, a request
with an unknown command and a notification. -/
def rejectedHdrs : List ReqHdr :=
  [⟨⟨2500#32,2#32,msgTypeRequest⟩,code .joinVlan,0#32⟩,
    ⟨⟨2500#32,2#32,msgTypeRequest⟩,999#32,1#32⟩,⟨⟨2500#32,2#32,1#32⟩,code .attach,2#32⟩]

end EthernetFirmware.ProxyServerDispatch
