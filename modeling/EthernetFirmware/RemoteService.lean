import EthernetFirmware.SlotTables
import EthernetFirmware.RemoteConfig
import EthernetFirmware.GuardedRuns

/-!
# Remote service calls

A caller names a service of another core and waits for the answer, or the
core calls its own service directly. The message layer between the cores
is a pair of queues whose sends and receives may fail. Messages carry the
call they were made for, which the code does not see; the calls handled and
the results returned are recorded.
-/

namespace EthernetFirmware.RemoteService

open Function SlotTables GuardedRuns RemoteConfig

/-- `APP_REMOTE_SERVICE_NAME_MAX`. -/
def nameMax : ℕ := 64

/-- `sizeof(app_service_msg_header_t)`. -/
def headerSize : ℕ := nameMax + 16

/-- `APP_REMOTE_SERVICE_PRM_SIZE_MAX`: a message of 528 bytes without its
header. -/
def prmSizeMax : ℕ := 496 + 32 - headerSize

/-- `APP_REMOTE_SERVICE_HANDLERS_MAX`. -/
abbrev handlersMax : ℕ := 8

/-- `APP_REMOTE_SERVICE_FLAG_NO_WAIT_ACK`. -/
def noWaitAck : U32 := 1#32

/-- A name is a string without its terminator. -/
abbrev Name := {bytes : List U8 // 0#8 ∉ bytes}

/-- The empty name. -/
def Name.empty : Name := ⟨[],List.not_mem_nil⟩

/-- `strncpy` into a name field whose last byte is then cleared. -/
def copyName (name : Name) : Name :=
  ⟨name.val.take (nameMax - 1),fun h => name.property (List.mem_of_mem_take h)⟩

/-- A handler in the state of its core: it may rewrite the parameter bytes
it is given. -/
structure Handler (σ : Type*) where
  /-- State, status and parameter bytes after the handler. -/
  run : σ → Name → U32 → List U8 → U32 → σ × Int × List U8
  /-- The number of parameter bytes stays. -/
  length_run : ∀ d name cmd prm flags, (run d name cmd prm flags).2.2.length = prm.length

/-- Arguments of a call. -/
structure Args where
  /-- Service name. -/
  serviceName : Name
  /-- Command. -/
  cmd : U32
  /-- Parameter bytes. -/
  prm : List U8
  /-- Flags. -/
  flags : U32
  deriving DecidableEq

/-- The call waits for an acknowledgement. -/
def Args.waits (a : Args) : Bool := a.flags &&& noWaitAck == 0#32

variable {σ : Type*}

/-- An entry of the handler table. -/
structure Entry (σ : Type*) where
  /-- Handler, if the entry is taken. -/
  handler : Option (Handler σ)
  /-- `service_name`. -/
  serviceName : Name

/-- A free entry. -/
def Entry.free : Entry σ := ⟨none,Name.empty⟩

/-- The handler table. -/
abbrev Table (σ : Type*) := Fin handlersMax → Entry σ

/-- Entry that a name leads to. -/
def findHandler (t : Table σ) (name : Name) : Option (Fin handlersMax) :=
  firstSlot (fun e => e.handler.isSome && decide (e.serviceName = name)) t

/-- State, status and parameter bytes after a call of a handler, and whether
a handler was found. -/
structure Handled (σ : Type*) where
  /-- State of the core. -/
  core : σ
  /-- Status. -/
  status : Int
  /-- Parameter bytes. -/
  prm : List U8
  /-- Whether a handler was run. -/
  found : Bool

/-- `appRemoteServiceRunHandler`. -/
def runHandler (t : Table σ) (core : σ) (a : Args) : Handled σ :=
  match (findHandler t a.serviceName).bind fun i => (t i).handler with
  | some h =>
    let r := h.run core a.serviceName a.cmd a.prm a.flags
    ⟨r.1,r.2.1,r.2.2,true⟩
  | none => ⟨core,-1,a.prm,false⟩

/-- `appRemoteServiceRegister`: the first entry without a handler. -/
def register (t : Table σ) (name : Name) (handler : Handler σ) : Int × Table σ :=
  match firstSlot (fun e => e.handler.isNone) t with
  | some i => (0,update t i ⟨some handler,copyName name⟩)
  | none => (-1,t)

/-- `appRemoteServiceUnRegister`: the first entry with the name, taken or
not. -/
def unRegister (t : Table σ) (name : Name) : Int × Table σ :=
  match firstSlot (fun e => decide (name = e.serviceName)) t with
  | some i => (0,update t i Entry.free)
  | none => (-1,t)

/-- `appRemoteServiceRun` on the core that has the service. -/
def runLocal (t : Table σ) (core : σ) (a : Args) : Handled σ :=
  if prmSizeMax < a.prm.length then ⟨core,-1,a.prm,false⟩ else runHandler t core a

/-- A call with its number. -/
structure Call where
  /-- Number of the call. -/
  id : ℕ
  /-- Arguments. -/
  args : Args
  deriving DecidableEq

/-- A message: header and parameter bytes, and the call it is made for. -/
structure Message where
  /-- Name, command, parameter bytes and flags. -/
  args : Args
  /-- `status` of the header. -/
  status : Int
  /-- The call. -/
  call : Call
  deriving DecidableEq

/-- `tx_payload_size`. -/
def payloadSize (a : Args) : ℕ := a.prm.length + headerSize

/-- The message that `appRemoteServiceRun` sends. -/
def request (c : Call) : Message :=
  ⟨{ c.args with serviceName := copyName c.args.serviceName },0,c⟩

/-- A message as it is received. -/
structure Packet where
  /-- Header and parameter bytes. -/
  msg : Message
  /-- Size of the message. -/
  len : ℕ
  /-- Endpoint of the sender. -/
  endpt : U32
  /-- Core of the sender. -/
  cpuId : U32
  deriving DecidableEq

/-- The service endpoint and the core that the calls go to. -/
structure Link where
  /-- `rpmsg_rx_endpt`. -/
  rxEndpt : U32
  /-- `dst_ipc_cpu_id`. -/
  dstCpuId : U32

/-- The message comes from the service. -/
def Packet.fromService (l : Link) (p : Packet) : Bool :=
  decide (p.endpt = l.rxEndpt) && decide (p.cpuId = l.dstCpuId)

/-- The test of a received acknowledgement. -/
def Packet.answers (l : Link) (p : Packet) (a : Args) : Bool :=
  decide (p.len = payloadSize a) && p.fromService l

/-- How a call has ended. -/
inductive Ending where
  /-- The parameter bytes are too many. -/
  | refused
  /-- The send has failed. -/
  | sendFailed
  /-- The message is sent and no acknowledgement is waited for. -/
  | notWaited
  /-- The receive has failed. -/
  | receiveFailed
  /-- A message was received. -/
  | received (packet : Packet)
  deriving DecidableEq

/-- A call that has returned. -/
structure Return where
  /-- The call. -/
  call : Call
  /-- How it has ended. -/
  ending : Ending
  /-- Status returned. -/
  status : Int
  /-- Bytes left in `prm`. -/
  prm : List U8
  deriving DecidableEq

/-- A call that the service core has handled, with what the same call made
there would have given. -/
structure Execution where
  /-- The call. -/
  call : Call
  /-- Name handed to the handler. -/
  serviceName : Name
  /-- Whether a handler was run. -/
  found : Bool
  /-- Status of the handler. -/
  status : Int
  /-- Parameter bytes after the handler. -/
  prm : List U8
  /-- Status of the call made locally. -/
  localStatus : Int
  /-- Parameter bytes after the call made locally. -/
  localPrm : List U8
  deriving DecidableEq

/-- A failure of the message layer. -/
abbrev Failure := {status : Int // status ≠ 0}

/-- The caller, the service core and the messages between them. -/
structure System (σ : Type*) where
  /-- Handlers of the service core. -/
  table : Table σ
  /-- Names that the handlers were registered with. -/
  asked : Fin handlersMax → Name
  /-- State of the service core. -/
  core : σ
  /-- Messages on their way to the service. -/
  requests : List Message
  /-- Messages waiting at the caller. -/
  replies : List Packet
  /-- The call in progress. -/
  pending : Option Call
  /-- Number of the next call. -/
  nextId : ℕ
  /-- Calls handled, oldest first. -/
  executions : List Execution
  /-- Calls returned, oldest first. -/
  returns : List Return

/-- Events on the two cores. -/
inductive Event (σ : Type*) where
  /-- A service is registered. -/
  | register (name : Name) (handler : Handler σ)
  /-- A service is unregistered. -/
  | unRegister (name : Name)
  /-- A call on the service core itself. -/
  | runLocal (args : Args)
  /-- A call begins, up to its send, which may fail. -/
  | call (args : Args) (send : Option Failure)
  /-- The service core receives a message and handles it; the send of the
  acknowledgement may fail. -/
  | serve (send : Option Failure)
  /-- The service core's receive fails, and the message may be lost. -/
  | serveFails (lost : Bool)
  /-- The caller receives a message. -/
  | receive
  /-- The caller's receive fails, and the message may be lost. -/
  | receiveFails (status : Failure) (lost : Bool)
  /-- Another sender's message arrives at the caller. -/
  | foreign (packet : Packet)

/-- A call returns. -/
def System.finish (s : System σ) (r : Return) : System σ :=
  { s with pending := none, returns := s.returns ++ [r] }

/-- `appRemoteServiceRun` up to the send of the request. -/
def beginCall (s : System σ) (a : Args) (send : Option Failure) : System σ :=
  match s.pending with
  | some _ => s
  | none =>
    let c : Call := ⟨s.nextId,a⟩
    let s1 := { s with nextId := s.nextId + 1 }
    if prmSizeMax < a.prm.length then s1.finish ⟨c,.refused,-1,a.prm⟩
    else
      match send with
      | some status => s1.finish ⟨c,.sendFailed,status.val,a.prm⟩
      | none =>
        let s2 := { s1 with requests := s1.requests ++ [request c] }
        if a.waits then { s2 with pending := some c } else s2.finish ⟨c,.notWaited,0,a.prm⟩

/-- What `appRemoteServiceRxTaskMain` records of a message. -/
def execution (s : System σ) (m : Message) : Execution :=
  let r := runHandler s.table s.core m.args
  let here := RemoteService.runLocal s.table s.core m.call.args
  ⟨m.call,m.args.serviceName,r.found,r.status,r.prm,here.status,here.prm⟩

/-- The acknowledgement: the message with the handler's status and bytes. -/
def acknowledgement (l : Link) (s : System σ) (m : Message) : Packet :=
  let r := runHandler s.table s.core m.args
  ⟨⟨{ m.args with prm := r.prm },r.status,m.call⟩,payloadSize m.args,l.rxEndpt,l.dstCpuId⟩

/-- `appRemoteServiceRxTaskMain`, one round with a message. -/
def serveRequest (l : Link) (s : System σ) (send : Option Failure) : System σ :=
  match s.requests with
  | [] => s
  | m :: ms =>
    { s with
      core := (runHandler s.table s.core m.args).core
      requests := ms
      replies := if m.args.waits && send.isNone then s.replies ++ [acknowledgement l s m]
        else s.replies
      executions := s.executions ++ [execution s m] }

/-- `appRemoteServiceRun` from a receive on. A message that does not answer
the request leaves the good status of the receive. -/
def receiveReply (l : Link) (s : System σ) : System σ :=
  match s.pending, s.replies with
  | some c, p :: ps =>
    { s with replies := ps }.finish
      (if p.answers l c.args then ⟨c,.received p,p.msg.status,p.msg.args.prm⟩
       else ⟨c,.received p,0,c.args.prm⟩)
  | _, _ => s

/-- System after an event; an event that cannot happen does nothing. -/
def step (l : Link) (s : System σ) : Event σ → System σ
  | .register name handler =>
    { s with
      table := (register s.table name handler).2
      asked := match firstSlot (fun e => e.handler.isNone) s.table with
        | some i => update s.asked i name
        | none => s.asked }
  | .unRegister name => { s with table := (unRegister s.table name).2 }
  | .runLocal a => { s with core := (RemoteService.runLocal s.table s.core a).core }
  | .call a send => beginCall s a send
  | .serve send => serveRequest l s send
  | .serveFails lost => if lost then { s with requests := s.requests.tail } else s
  | .receive => receiveReply l s
  | .receiveFails status lost =>
    match s.pending with
    | none => s
    | some c =>
      { s with replies := if lost then s.replies.tail else s.replies }.finish
        ⟨c,.receiveFailed,status.val,c.args.prm⟩
  | .foreign p => if p.fromService l then s else { s with replies := s.replies ++ [p] }

/-- The initialised service core and nothing on its way. -/
def start (core : σ) : System σ :=
  ⟨fun _ => Entry.free,fun _ => Name.empty,core,[],[],none,0,[],[]⟩

/-- What a returned call that waited owes its caller. -/
structure ReturnOk (l : Link) (executions : List Execution) (r : Return) : Prop where
  /-- Zero is returned only if a handler was run for exactly the arguments
  of the call and returned zero. -/
  zero : r.call.args.waits = true → r.status = 0 →
    ∃ e ∈ executions, e.call = r.call ∧ e.serviceName = r.call.args.serviceName ∧
      e.found = true ∧ e.status = 0
  /-- An answered call has the status and the bytes of the local call. -/
  same : ∀ p, r.ending = .received p → p.answers l r.call.args = true →
    ∃ e ∈ executions, e.call = r.call ∧ r.status = e.localStatus ∧ r.prm = e.localPrm
  /-- A message that does not answer the call is an error. -/
  mismatch : ∀ p, r.ending = .received p → p.answers l r.call.args = false → r.status ≠ 0

/-- The entry is the only one registered with its name. -/
def Sole (s : System σ) (i : Fin handlersMax) : Prop :=
  (s.table i).handler.isSome = true ∧ s.asked i ≠ Name.empty ∧
    ∀ j, (s.table j).handler.isSome = true → s.asked j = s.asked i → j = i

/-- A service whose name is registered once is reached under that name,
locally and remotely, and unregistering the name frees exactly its entry. -/
def Reached (s : System σ) : Prop :=
  ∀ i, Sole s i →
    findHandler s.table (s.asked i) = some i ∧
      findHandler s.table (copyName (s.asked i)) = some i ∧
      unRegister s.table (s.asked i) = (0,update s.table i Entry.free)

/-- No call is in progress and no message is on its way. -/
structure Quiet (s : System σ) : Prop where
  /-- No call. -/
  pending : s.pending = none
  /-- No request. -/
  requests : s.requests = []
  /-- No reply. -/
  replies : s.replies = []

/-- A call made while nothing is on its way returns with its answer when no
message is lost. -/
def Answered (l : Link) (s : System σ) : Prop :=
  ∀ a, Quiet s → a.waits = true → a.prm.length ≤ prmSizeMax →
    ∃ r p, (run (step l) s [.call a none,.serve none,.receive]).returns = s.returns ++ [r] ∧
      r.call = ⟨s.nextId,a⟩ ∧ r.ending = .received p ∧ p.answers l a = true

/-- Remote and local calls agree. -/
structure Agrees (l : Link) (s : System σ) : Prop where
  /-- Every call that has returned. -/
  returns : ∀ r ∈ s.returns, ReturnOk l s.executions r
  /-- Every service registered. -/
  reached : Reached s
  /-- Every call that can be made. -/
  answered : Answered l s

/-- A name that is copied whole, or leads to no service when it is not. -/
def CopiesName (t : Table σ) (name : Name) : Prop :=
  name.val.length < nameMax ∨ findHandler t (copyName name) = none

/-- The condition on the events. -/
def Regular (l : Link) (s : System σ) : Event σ → Prop
  -- A registered name fits its field, unless the table is full.
  | .register name _ => name.val.length < nameMax ∨ ∀ i, (s.table i).handler.isSome = true
  -- The name of a handled call fits its field, or its copy leads nowhere.
  | .serve _ => ∀ m ∈ s.requests.head?, CopiesName s.table m.call.args.serviceName
  -- The first message waiting at the caller acknowledges its call.
  | .receive => ∀ c ∈ s.pending, ∀ p ∈ s.replies.head?, p.fromService l = true ∧ p.msg.call = c
  | _ => True

/-- A free entry has no name, and a taken one has the whole name it was
registered with. -/
structure EntryOk (e : Entry σ) (asked : Name) : Prop where
  /-- Free entry. -/
  free : e.handler.isSome = false → e.serviceName = Name.empty
  /-- Taken entry. -/
  taken : e.handler.isSome = true → e.serviceName = asked ∧ asked.val.length < nameMax

/-- What was handled is what the local call would have been. -/
structure ExecutionOk (e : Execution) : Prop where
  /-- Status. -/
  status : e.status = e.localStatus
  /-- Bytes. -/
  prm : e.prm = e.localPrm
  /-- Name. -/
  name : e.found = true → e.serviceName = e.call.args.serviceName
  /-- No handler. -/
  missing : e.found = false → e.status ≠ 0

/-- The acknowledgement carries what was handled. -/
def Acknowledges (p : Packet) (e : Execution) : Prop :=
  e.call = p.msg.call ∧ p.msg.status = e.status ∧ p.msg.args.prm = e.prm ∧
    p.len = payloadSize p.msg.call.args

/-- What holds of regular runs. -/
structure Inv (l : Link) (s : System σ) : Prop where
  /-- Handler table. -/
  entries : ∀ i, EntryOk (s.table i) (s.asked i)
  /-- Messages to the service. -/
  requests : ∀ m ∈ s.requests, m = request m.call ∧ m.call.args.prm.length ≤ prmSizeMax
  /-- Messages from the service. -/
  replies : ∀ p ∈ s.replies, p.fromService l = true → ∃ e ∈ s.executions, Acknowledges p e
  /-- Calls handled. -/
  executions : ∀ e ∈ s.executions, ExecutionOk e
  /-- Calls returned. -/
  returns : ∀ r ∈ s.returns, ReturnOk l s.executions r

section Table

variable {t : Table σ} {asked : Fin handlersMax → Name} {name : Name} {i : Fin handlersMax}
  {core : σ} {a : Args}

theorem copyName_eq (h : name.val.length < nameMax) : copyName name = name := by
  apply Subtype.ext
  exact List.take_of_length_le (by omega)

/-- A name that does not fit its field leads to no service. -/
theorem findHandler_long (h : ∀ i, EntryOk (t i) (asked i)) (hlong : nameMax ≤ name.val.length) :
    findHandler t name = none := by
  unfold findHandler
  rw [firstSlot_eq_none_iff]
  intro i
  by_contra hp
  simp only [Bool.not_eq_false,Bool.and_eq_true,decide_eq_true_eq] at hp
  obtain ⟨hname,hlen⟩ := (h i).taken hp.1
  rw [← hname,hp.2] at hlen
  omega

theorem runHandler_none (h : findHandler t a.serviceName = none) :
    runHandler t core a = ⟨core,-1,a.prm,false⟩ := by
  unfold runHandler
  rw [h]
  rfl

/-- A copied name leads where the name leads. -/
theorem runHandler_copy (core : σ) (h : ∀ i, EntryOk (t i) (asked i))
    (hc : CopiesName t a.serviceName) :
    runHandler t core { a with serviceName := copyName a.serviceName } = runHandler t core a ∧
      ((runHandler t core a).found = true → copyName a.serviceName = a.serviceName) := by
  by_cases hlen : a.serviceName.val.length < nameMax
  · have hcopy := copyName_eq hlen
    exact ⟨by rw [hcopy],fun _ => hcopy⟩
  · have hnone := findHandler_long h (Nat.le_of_not_lt hlen)
    have hhere : runHandler t core a = ⟨core,-1,a.prm,false⟩ := runHandler_none hnone
    have hcopy : runHandler t core { a with serviceName := copyName a.serviceName } =
        ⟨core,-1,a.prm,false⟩ := runHandler_none (hc.resolve_left hlen)
    refine ⟨hcopy.trans hhere.symm,fun hfound => ?_⟩
    rw [hhere] at hfound
    cases hfound

theorem runHandler_missing (h : (runHandler t core a).found = false) :
    (runHandler t core a).status ≠ 0 := by
  unfold runHandler at h ⊢
  split at h
  · cases h
  · show (-1 : Int) ≠ 0
    decide

end Table

/-- A call made while nothing is on its way returns with its answer. -/
theorem answered (l : Link) (s : System σ) : Answered l s := by
  intro a hquiet hwaits hsize
  have hbegin : beginCall s a none =
      { s with
        nextId := s.nextId + 1
        requests := [request ⟨s.nextId,a⟩]
        pending := some ⟨s.nextId,a⟩ } := by
    unfold beginCall
    simp only [hquiet.pending,hquiet.requests,hwaits,if_neg (Nat.not_lt.mpr hsize),if_true,
      List.nil_append]
  obtain ⟨s1,hs1⟩ : ∃ s1, s1 = beginCall s a none := ⟨_,rfl⟩
  obtain ⟨p,hp⟩ : ∃ p, p = acknowledgement l s1 (request ⟨s.nextId,a⟩) := ⟨_,rfl⟩
  have hanswers : p.answers l a = true := by
    rw [hp]
    simp [Packet.answers,Packet.fromService,acknowledgement,request,payloadSize]
  have hserve : serveRequest l s1 none =
      { s1 with
        core := (runHandler s1.table s1.core (request ⟨s.nextId,a⟩).args).core
        requests := []
        replies := [p]
        executions := s1.executions ++ [execution s1 (request ⟨s.nextId,a⟩)] } := by
    unfold serveRequest
    have hsent : (request ⟨s.nextId,a⟩).args.waits = true := hwaits
    have hrequests : s1.requests = [request ⟨s.nextId,a⟩] := by rw [hs1,hbegin]
    have hreplies : s1.replies = [] := by rw [hs1,hbegin]; exact hquiet.replies
    simp only [hrequests,hreplies,hsent,Option.isNone_none,Bool.and_true,if_true,List.nil_append,
      hp]
  refine ⟨⟨⟨s.nextId,a⟩,.received p,p.msg.status,p.msg.args.prm⟩,p,?_,rfl,rfl,hanswers⟩
  show (receiveReply l (serveRequest l (beginCall s a none) none)).returns = _
  rw [← hs1,hserve]
  unfold receiveReply
  have hpending : s1.pending = some ⟨s.nextId,a⟩ := by rw [hs1,hbegin]
  have hreturns : s1.returns = s.returns := by rw [hs1,hbegin]
  simp only [hpending,hanswers,if_true,System.finish,hreturns]

/-- A call that ends without a received message, and fails if it waits. -/
theorem returnOk_of_not_received {l : Link} {executions : List Execution} {r : Return}
    (hfail : r.call.args.waits = true → r.status ≠ 0)
    (hend : ∀ p, r.ending ≠ .received p) : ReturnOk l executions r :=
  ⟨fun hw h => absurd h (hfail hw),fun p hp => absurd hp (hend p),fun p hp => absurd hp (hend p)⟩

/-- More executions keep a returned call right. -/
theorem ReturnOk.mono {l : Link} {executions executions' : List Execution} {r : Return}
    (h : ReturnOk l executions r) (hsub : ∀ e ∈ executions, e ∈ executions') :
    ReturnOk l executions' r := by
  refine ⟨fun hw hz => ?_,fun p hp ha => ?_,h.mismatch⟩
  · obtain ⟨e,he,hrest⟩ := h.zero hw hz
    exact ⟨e,hsub e he,hrest⟩
  · obtain ⟨e,he,hrest⟩ := h.same p hp ha
    exact ⟨e,hsub e he,hrest⟩

namespace Inv

variable {l : Link} {s : System σ} {a : Args}

/-- A service whose name is registered once is reached. -/
theorem reached (h : Inv l s) : Reached s := by
  intro i hi
  obtain ⟨htaken,hname,hsole⟩ := hi
  obtain ⟨hentry,hlen⟩ := (h.entries i).taken htaken
  have hfind : findHandler s.table (s.asked i) = some i := by
    refine firstSlot_eq_of_unique (by simp [htaken,hentry]) fun j hj => ?_
    simp only [Bool.and_eq_true,decide_eq_true_eq] at hj
    exact hsole j hj.1 (((h.entries j).taken hj.1).1.symm.trans hj.2)
  refine ⟨hfind,by rw [copyName_eq hlen,hfind],?_⟩
  have hfirst : firstSlot (fun e => decide (s.asked i = e.serviceName)) s.table = some i := by
    refine firstSlot_eq_of_unique (by simp [hentry]) fun j hj => ?_
    have hj' : s.asked i = (s.table j).serviceName := of_decide_eq_true hj
    cases hh : (s.table j).handler.isSome with
    | false => exact absurd (hj'.trans ((h.entries j).free hh)) hname
    | true => exact hsole j hh (((h.entries j).taken hh).1.symm.trans hj'.symm)
  unfold unRegister
  rw [hfirst]

theorem agrees (h : Inv l s) : Agrees l s := ⟨h.returns,h.reached,answered l s⟩

theorem register (h : Inv l s) {name : Name} {handler : Handler σ}
    (hg : name.val.length < nameMax ∨ ∀ i, (s.table i).handler.isSome = true) :
    Inv l (step l s (.register name handler)) := by
  unfold step RemoteService.register
  dsimp only
  cases hfirst : firstSlot (fun e => e.handler.isNone) s.table with
  | none => exact ⟨h.entries,h.requests,h.replies,h.executions,h.returns⟩
  | some i =>
    have hfree : (s.table i).handler.isSome = false := by
      have hi := (firstSlot_eq_some_iff.mp hfirst).1
      simpa using hi
    have hlen : name.val.length < nameMax := by
      rcases hg with hlen | hfull
      · exact hlen
      · rw [hfull i] at hfree
        cases hfree
    refine ⟨fun j => ?_,h.requests,h.replies,h.executions,h.returns⟩
    by_cases hj : j = i
    · subst hj
      simp only [update_self]
      exact ⟨fun hnone => (by cases hnone),fun _ => ⟨copyName_eq hlen,hlen⟩⟩
    · simp only [update_of_ne hj]
      exact h.entries j

theorem unRegister (h : Inv l s) (name : Name) : Inv l (step l s (.unRegister name)) := by
  unfold step RemoteService.unRegister
  dsimp only
  cases hfirst : firstSlot (fun e => decide (name = e.serviceName)) s.table with
  | none => exact h
  | some i =>
    refine ⟨fun j => ?_,h.requests,h.replies,h.executions,h.returns⟩
    by_cases hj : j = i
    · subst hj
      simp only [update_self]
      exact ⟨fun _ => rfl,fun htaken => (by cases htaken)⟩
    · simp only [update_of_ne hj]
      exact h.entries j

/-- A call returns with a result that is right. -/
theorem finish (h : Inv l s) {r : Return} (hr : ReturnOk l s.executions r) :
    Inv l (s.finish r) := by
  refine ⟨h.entries,h.requests,h.replies,h.executions,fun r' hr' => ?_⟩
  rcases List.mem_append.mp hr' with hold | hnew
  · exact h.returns r' hold
  · obtain rfl := List.mem_singleton.mp hnew
    exact hr

theorem beginCall (h : Inv l s) (a : Args) (send : Option Failure) :
    Inv l (beginCall s a send) := by
  unfold RemoteService.beginCall
  split
  · exact h
  · have hnext : Inv l { s with nextId := s.nextId + 1 } :=
      ⟨h.entries,h.requests,h.replies,h.executions,h.returns⟩
    dsimp only
    split
    · exact hnext.finish (returnOk_of_not_received (fun _ => (by decide : (-1 : Int) ≠ 0)) nofun)
    · next hsize =>
      have hsent : Inv l { s with nextId := s.nextId + 1, requests := s.requests ++
          [request ⟨s.nextId,a⟩] } := by
        refine ⟨h.entries,fun m hm => ?_,h.replies,h.executions,h.returns⟩
        rcases List.mem_append.mp hm with hold | hnew
        · exact h.requests m hold
        · obtain rfl := List.mem_singleton.mp hnew
          exact ⟨rfl,Nat.le_of_not_lt hsize⟩
      cases send with
      | some status =>
        exact hnext.finish (returnOk_of_not_received (fun _ => status.property) nofun)
      | none =>
        dsimp only
        split
        · exact ⟨hsent.entries,hsent.requests,hsent.replies,hsent.executions,hsent.returns⟩
        · next hwaits =>
          exact hsent.finish (returnOk_of_not_received (fun hw => absurd hw hwaits) nofun)

/-- A call whose name is copied whole, or leads nowhere, is handled as the
local call. -/
theorem execution (h : Inv l s) {m : Message} (hm : m ∈ s.requests)
    (hc : CopiesName s.table m.call.args.serviceName) :
    ExecutionOk (execution s m) ∧ Acknowledges (acknowledgement l s m) (execution s m) := by
  obtain ⟨hreq,hsize⟩ := h.requests m hm
  have hargs : m.args =
      { m.call.args with serviceName := copyName m.call.args.serviceName } :=
    congrArg Message.args hreq
  obtain ⟨hsame,hname⟩ := runHandler_copy s.core h.entries hc
  rw [← hargs] at hsame
  have hlocal : runLocal s.table s.core m.call.args = runHandler s.table s.core m.args := by
    unfold runLocal
    rw [if_neg (Nat.not_lt.mpr hsize),hsame]
  unfold RemoteService.execution acknowledgement
  rw [hlocal]
  refine ⟨⟨rfl,rfl,fun hfound => ?_,runHandler_missing⟩,rfl,rfl,rfl,?_⟩
  · rw [hsame] at hfound
    rw [hargs]
    exact hname hfound
  · simp only [payloadSize,hargs]

theorem serve (h : Inv l s) (send : Option Failure)
    (hg : ∀ m ∈ s.requests.head?, CopiesName s.table m.call.args.serviceName) :
    Inv l (serveRequest l s send) := by
  unfold serveRequest
  cases hrequests : s.requests with
  | nil => exact h
  | cons m ms =>
    have hm : m ∈ s.requests := by
      rw [hrequests]
      exact List.mem_cons_self
    obtain ⟨hexec,hack⟩ := h.execution hm (hg m (by rw [hrequests]; rfl))
    have hsub : ∀ e ∈ s.executions, e ∈ s.executions ++ [RemoteService.execution s m] :=
      fun e he => List.mem_append_left _ he
    refine ⟨h.entries,fun m' hm' => ?_,fun p hp hservice => ?_,fun e he => ?_,
      fun r hr => (h.returns r hr).mono hsub⟩
    · refine h.requests m' ?_
      rw [hrequests]
      exact List.mem_cons_of_mem _ hm'
    · have hcases : p ∈ s.replies ∨ p = acknowledgement l s m := by
        dsimp only at hp
        split at hp
        · rcases List.mem_append.mp hp with hold | hnew
          · exact Or.inl hold
          · exact Or.inr (List.mem_singleton.mp hnew)
        · exact Or.inl hp
      rcases hcases with hold | rfl
      · obtain ⟨e,he,hrest⟩ := h.replies p hold hservice
        exact ⟨e,hsub e he,hrest⟩
      · exact ⟨_,List.mem_append_right _ (List.mem_singleton_self _),hack⟩
    · rcases List.mem_append.mp he with hold | hnew
      · exact h.executions e hold
      · obtain rfl := List.mem_singleton.mp hnew
        exact hexec

/-- Fewer messages keep the invariant. -/
theorem lose (h : Inv l s) {requests : List Message} {replies : List Packet}
    (hreq : requests ⊆ s.requests) (hrep : replies ⊆ s.replies) :
    Inv l { s with requests := requests, replies := replies } :=
  ⟨h.entries,fun m hm => h.requests m (hreq hm),fun p hp => h.replies p (hrep hp),h.executions,
    h.returns⟩

/-- The acknowledgement of a call returns what was handled. -/
theorem receive (h : Inv l s)
    (hg : ∀ c ∈ s.pending, ∀ p ∈ s.replies.head?, p.fromService l = true ∧ p.msg.call = c) :
    Inv l (receiveReply l s) := by
  unfold receiveReply
  split
  · next c p ps hpending hreplies =>
    obtain ⟨hservice,hcall⟩ := hg c hpending p (by rw [hreplies]; rfl)
    obtain ⟨e,he,hec,hstatus,hprm,hlen⟩ :=
      h.replies p (by rw [hreplies]; exact List.mem_cons_self) hservice
    have hanswers : p.answers l c.args = true := by
      unfold Packet.answers
      rw [hservice,hlen,hcall]
      simp
    have hok := h.executions e he
    have hps : ps ⊆ s.replies := by
      rw [hreplies]
      exact List.subset_cons_self p ps
    refine (h.lose (List.Subset.refl _) hps).finish ?_
    rw [if_pos hanswers]
    have hzero : p.msg.status = 0 → e.serviceName = c.args.serviceName ∧ e.found = true ∧
        e.status = 0 := by
      intro hz
      have hez : e.status = 0 := hstatus.symm.trans hz
      have hfound : e.found = true := by
        by_contra hmissing
        exact hok.missing (by simpa using hmissing) hez
      refine ⟨?_,hfound,hez⟩
      rw [hok.name hfound,hec,hcall]
    exact ⟨fun _ hz => ⟨e,he,hec.trans hcall,hzero hz⟩,
      fun _ _ _ => ⟨e,he,hec.trans hcall,hstatus.trans hok.status,hprm.trans hok.prm⟩,
      fun p' hp' hno => by
        cases hp'
        rw [hanswers] at hno
        cases hno⟩
  · exact h

theorem start (l : Link) (core : σ) : Inv l (start core) :=
  ⟨fun _ => ⟨fun _ => rfl,fun htaken => (by cases htaken)⟩,by simp [RemoteService.start],
    by simp [RemoteService.start],by simp [RemoteService.start],by simp [RemoteService.start]⟩

/-- Every event that meets the condition keeps the invariant. -/
theorem step (h : Inv l s) {e : Event σ} (hg : Regular l s e) : Inv l (step l s e) := by
  cases e with
  | register name handler => exact h.register hg
  | unRegister name => exact h.unRegister name
  | runLocal a => exact ⟨h.entries,h.requests,h.replies,h.executions,h.returns⟩
  | call a send => exact h.beginCall a send
  | serve send => exact h.serve send hg
  | receive => exact h.receive hg
  | serveFails lost =>
    cases lost with
    | false => exact h
    | true => exact h.lose (List.tail_subset _) (List.Subset.refl _)
  | receiveFails status lost =>
    simp only [RemoteService.step]
    split
    · exact h
    · next c _ =>
      refine finish ?_ (returnOk_of_not_received
        (r := ⟨c,.receiveFailed,status.val,c.args.prm⟩) (fun _ => status.property) nofun)
      cases lost with
      | false => exact h
      | true => exact h.lose (List.Subset.refl _) (List.tail_subset _)
  | foreign p =>
    simp only [RemoteService.step]
    split
    · exact h
    · next hforeign =>
      refine ⟨h.entries,h.requests,fun p' hp' hservice => ?_,h.executions,h.returns⟩
      rcases List.mem_append.mp hp' with hold | hnew
      · exact h.replies p' hold hservice
      · obtain rfl := List.mem_singleton.mp hnew
        exact absurd hservice hforeign

end Inv

/-- From the initialised service core, in every run whose registered and
handled names fit their fields and whose receives get the acknowledgement
of the call, remote and local calls agree in every state. -/
theorem agree_of_regular (l : Link) (core : σ) (events : List (Event σ))
    (h : Guarded (step l) (Regular l) (start core) events) :
    Along (step l) (Agrees l) (start core) events :=
  along_mono (fun _ hinv => hinv.agrees)
    (along_of_guarded (fun _ _ hinv hg => hinv.step hg) (Inv.start l core) h)

/-- A handler that counts its calls and clears the bytes it is given. -/
def clearBytes : Handler ℕ where
  run count _ _ prm _ := (count + 1,0,prm.map fun _ => 0#8)
  length_run _ _ _ _ _ := List.length_map _

/-- A name of a number of equal letters. -/
def letters (n : ℕ) : Name :=
  ⟨List.replicate n 0x61#8,fun h => absurd (List.eq_of_mem_replicate h) (by decide)⟩

/-- A service is registered, called and answered. -/
def callOnce (registered called : Name) : List (Event ℕ) :=
  [.register registered clearBytes,.call ⟨called,1#32,[7#8,8#8],0#32⟩ none,.serve none,.receive]

/-- A call of a service by its short name. -/
theorem agree_short_name :
    Along (step ⟨21#32,1#32⟩) (Agrees ⟨21#32,1#32⟩) (start 0)
      (callOnce (letters 5) (letters 5)) := by
  refine agree_of_regular ⟨21#32,1#32⟩ 0 (callOnce (letters 5) (letters 5)) ?_
  unfold callOnce
  rw [guarded_cons,guarded_cons,guarded_cons,guarded_cons]
  refine ⟨Or.inl (by decide),trivial,fun m hm => ?_,fun c hc p hp => ?_,trivial⟩
  · cases hm
    exact Or.inl (by decide)
  · cases hc
    cases hp
    exact ⟨by decide,by decide⟩

/-- A service is called by a name of 64 letters of which it has the first
63: the remote call reaches it, and the local call does not. -/
theorem long_name_disagrees :
    ¬ Along (step ⟨21#32,1#32⟩) (Agrees ⟨21#32,1#32⟩) (start 0)
      (callOnce (letters 63) (letters 64)) := by
  intro h
  let a : Args := ⟨letters 64,1#32,[7#8,8#8],0#32⟩
  let p : Packet := ⟨⟨⟨letters 63,1#32,[0#8,0#8],0#32⟩,0,⟨0,a⟩⟩,82,21#32,1#32⟩
  have hsame := ((along_final h).returns ⟨⟨0,a⟩,.received p,0,[0#8,0#8]⟩ (by decide)).same p rfl
    (by decide)
  revert hsame
  decide

end EthernetFirmware.RemoteService
