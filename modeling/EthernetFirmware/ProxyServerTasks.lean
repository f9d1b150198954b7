import EthernetFirmware.ProxyServerRequests

/-!
# Request tasks of the server proxy

Each endpoint of the server has a task that serves its requests one after
another, and the tasks run next to each other. A task takes or looks up the
client object under the server's mutex and gives the mutex back; what follows
may block in a driver call before it writes the object. A request is therefore
served in two steps, between which any other task may run. Served without
interruption they are the request handler.

An attach callback writes the token, the core and the features together, after
its first driver call. What it writes later is read by no other task before the
request is answered, except for the client identity, which selects the endpoint
of a notification.
-/

namespace EthernetFirmware.ProxyServerTasks

open Function SlotTables RemoteConfig ProxyServerClients ProxyServerRequests

/-- What is left of a request whose client object has been taken or found. -/
inductive Rest where
  /-- The callback of ATTACH. -/
  | attach (virtPort : U32) (hClient : Slot)
  /-- The callback of ATTACH_EXT. -/
  | attachExt (virtPort : U32) (hClient : Slot)
  /-- The callback of DETACH, and the object is freed. -/
  | detach (hClient : Slot)
  /-- The object of a TEARDOWN_COMPLETION is marked idle. -/
  | teardownCompletion (hClient : Slot)
  deriving DecidableEq

/-- The client object the rest of the request works on. -/
def Rest.hClient : Rest → Slot
  | .attach _ i | .attachExt _ i | .detach i | .teardownCompletion i => i

/-- The port an attach is for. -/
def Rest.attachPort : Rest → Option U32
  | .attach v _ | .attachExt v _ => some v
  | .detach _ | .teardownCompletion _ => none

/-- How far the first step of a request gets. -/
inductive Begun where
  /-- The request is answered. -/
  | answered (res : Response)
  /-- A client object has been taken or found. -/
  | left (rest : Rest)

variable {procs : ℕ}

/-- The first step of the two attach cases. -/
def takeClient (w : World procs) (r : Request procs) (virtPort : U32) (rest : Slot → Rest) :
    World procs × Begun :=
  match allocClient w r.remoteProcId r.remoteEndPt virtPort with
  | none => (w,.answered (respond r r.token ealloc (.attach {})))
  | some (i,w1) => (w1,.left (rest i))

/-- The first step of the cases that look a client object up. -/
def findClient (w : World procs) (r : Request procs) (missing : Status) (rest : Slot → Rest) :
    World procs × Begun :=
  match getClient w r.remoteProcId r.token with
  | none => (w,.answered (respond r r.token missing .status))
  | some i => (w,.left (rest i))

/-- `CpswProxyServer_clientRequestHandler` until the mutex is given back. -/
def beginRequest (w : World procs) (r : Request procs) : World procs × Begun :=
  match r.cmd with
  | .virtPortInfo =>
    let a := virtPortAllocCb w.server r.clientId.toNat r.remoteProcId
    (w,.answered (respond r r.token a.1 (.portMasks a.2)))
  | .attach v => takeClient w r v (.attach v)
  | .attachExt v => takeClient w r v (.attachExt v)
  | .detach => findClient w r einvalidParams .detach
  | .teardownCompletion => findClient w r efail .teardownCompletion

/-- The end of the two attach cases. -/
def storeClientId (r : Request procs) (i : Slot) (h : Handled procs) : World procs × Response :=
  (h.world.modifyClient r.remoteProcId i fun c => { c with clientId := r.clientId.setWidth 32 },
    respond r (h.world.client r.remoteProcId i).token h.status (.attach h.out))

/-- `CpswProxyServer_clientRequestHandler` from there on. -/
def finishRequest (w : World procs) (x : Outcomes) (r : Request procs) :
    Rest → World procs × Response
  | .attach v i => storeClientId r i (attachHandlerCb w x r.remoteProcId i v true)
  | .attachExt v i => storeClientId r i (attachExtHandlerCb w x r.remoteProcId i v)
  | .detach i =>
    let d := detachHandlerCb w x r.remoteProcId
    (freeClient d.1 r.remoteProcId i,respond r r.token d.2 .status)
  | .teardownCompletion i =>
    (w.modifyClient r.remoteProcId i fun c => { c with isIdle := true },
      respond r r.token sok .status)

/-- A request served without interruption is served by the request handler. -/
theorem clientRequestHandler_eq (w : World procs) (x : Outcomes) (r : Request procs) :
    clientRequestHandler w x r =
      match beginRequest w r with
      | (w1,.answered res) => (w1,res)
      | (w1,.left rest) => finishRequest w1 x r rest := by
  unfold clientRequestHandler beginRequest
  cases r.cmd with
  | virtPortInfo => rfl
  | attach v | attachExt v =>
    simp only [serveAttach,takeClient]
    cases allocClient w r.remoteProcId r.remoteEndPt v with
    | none => rfl
    | some a => rfl
  | detach | teardownCompletion =>
    simp only [findClient]
    cases getClient w r.remoteProcId r.token with
    | none => rfl
    | some i => rfl

/-- What the first step leaves: nothing changed, or an attach took a free
object and cleared its token and its idle mark. -/
inductive BeginEffect (w : World procs) (r : Request procs) : World procs × Begun → Prop where
  /-- The request is answered. -/
  | answered (res : Response) : BeginEffect w r (w,.answered res)
  /-- A client object is found by its token. -/
  | found (rest : Rest) (hget : getClient w r.remoteProcId r.token = some rest.hClient)
      (hport : rest.attachPort = none) : BeginEffect w r (w,.left rest)
  /-- A free object is taken. -/
  | taken (v : U32) (rest : Rest) (hport : rest.attachPort = some v)
      (hfree : (w.client r.remoteProcId rest.hClient).inUse = false) :
      BeginEffect w r (w.modifyClient r.remoteProcId rest.hClient fun c =>
        { c with inUse := true, virtPort := v, token := tokenNone,
                 remoteEp := r.remoteEndPt, isIdle := false, vlanRefCnt := 0#32 },.left rest)

section Begin

variable {w : World procs} {r : Request procs} {rest : Slot → Rest}

theorem takeClient_effect (v : U32) (hslot : ∀ i, (rest i).hClient = i)
    (hport : ∀ i, (rest i).attachPort = some v) :
    BeginEffect w r (takeClient w r v rest) := by
  unfold takeClient
  cases ha : allocClient w r.remoteProcId r.remoteEndPt v with
  | none => exact .answered _
  | some a =>
    obtain ⟨i,w1⟩ := a
    obtain ⟨hfree,rfl⟩ := allocClient_eq_some ha
    have h := BeginEffect.taken (w := w) (r := r) v (rest i) (hport i)
    rw [hslot] at h
    exact h hfree

theorem findClient_effect (missing : Status) (hslot : ∀ i, (rest i).hClient = i)
    (hport : ∀ i, (rest i).attachPort = none) :
    BeginEffect w r (findClient w r missing rest) := by
  unfold findClient
  cases hg : getClient w r.remoteProcId r.token with
  | none => exact .answered _
  | some i => exact .found (rest i) (by rw [hg,hslot]) (hport i)

theorem beginRequest_effect (w : World procs) (r : Request procs) :
    BeginEffect w r (beginRequest w r) := by
  unfold beginRequest
  cases r.cmd with
  | virtPortInfo => exact .answered _
  | attach v | attachExt v => exact takeClient_effect v (fun _ => rfl) fun _ => rfl
  | detach | teardownCompletion => exact findClient_effect _ (fun _ => rfl) fun _ => rfl

/-- Only a teardown confirmation is left to mark an object idle. -/
theorem cmd_of_teardownCompletion {a : Rest} (h : (beginRequest w r).2 = .left a)
    (ha : a = .teardownCompletion a.hClient) : r.cmd = .teardownCompletion := by
  unfold beginRequest at h
  cases hc : r.cmd with
  | teardownCompletion => rfl
  | virtPortInfo => simp [hc] at h
  | attach v | attachExt v =>
    simp only [hc,takeClient] at h
    split at h
    · contradiction
    · rw [← Begun.left.inj h] at ha
      contradiction
  | detach =>
    simp only [hc,findClient] at h
    split at h
    · contradiction
    · rw [← Begun.left.inj h] at ha
      contradiction

end Begin

/-- What the rest of a request does to the object it works on. -/
def Rest.Writes (w : World procs) (x : Outcomes) (core : Fin procs) (c c' : ClientObj) :
    Rest → Prop
  | .attach v _ | .attachExt v _ =>
    c'.inUse = c.inUse ∧ c'.isIdle = c.isIdle ∧
      c'.token = (if mtuOk w x core then virtPort2Token v else c.token) ∧
      c'.coreId = if mtuOk w x core then core.val else c.coreId
  | .detach _ => c' = ClientObj.free
  | .teardownCompletion _ => c' = { c with isIdle := true }

section Finish

variable {w : World procs} {x : Outcomes} {core : Fin procs} {i : Slot} {v : U32}

/-- The core is saved together with the token. -/
theorem coreId_attachHandlerCb (hr : w.server.initDone = true) (wantNums : Bool) :
    ((attachHandlerCb w x core i v wantNums).world.client core i).coreId =
      if mtuOk w x core then core.val else (w.client core i).coreId := by
  have hmtu : ((referCore w x core).attachInfo core).uniformTxMtu = mtuOk w x core := by
    rw [attachInfo_referCore]
    rfl
  unfold attachHandlerCb
  simp only [hr,if_true,hmtu]
  by_cases hu : mtuOk w x core = true
  · simp [hu]
  · simp [hu]

/-- A stage that keeps the core of the object keeps it after the stages
before it. -/
theorem coreId_andThen {h : Handled procs} {f : World procs → AttachParams → Handled procs}
    (hf : ∀ w out, ((f w out).world.client core i).coreId = (w.client core i).coreId) :
    ((h.andThen f).world.client core i).coreId = (h.world.client core i).coreId := by
  unfold Handled.andThen
  split
  · exact hf h.world h.out
  · rfl

theorem coreId_attachExtHandlerCb (hr : w.server.initDone = true) :
    ((attachExtHandlerCb w x core i v).world.client core i).coreId =
      if mtuOk w x core then core.val else (w.client core i).coreId := by
  have hsame : ∀ {f : World procs → AttachParams → Handled procs},
      (∀ w out, SameCores w (f w out).world) →
      ∀ w out, ((f w out).world.client core i).coreId = (w.client core i).coreId := by
    intro f hf w out
    rw [(hf w out).client core]
  unfold attachExtHandlerCb
  rw [coreId_andThen fun w out => by simp [saveParams],
    coreId_andThen (hsame fun _ out => allocMac_sameCores out),
    coreId_andThen (hsame fun _ out => allocTxCh_sameCores out),
    coreId_andThen (hsame fun _ out => allocRxFlow_sameCores out),
    coreId_andThen fun w out => rfl]
  exact coreId_attachHandlerCb hr false

/-- What the rest of a request does to the client objects. -/
structure FinishEffect (w : World procs) (x : Outcomes) (core : Fin procs) (rest : Rest)
    (w' : World procs) : Prop where
  /-- The object it works on is written. -/
  written : rest.Writes w x core (w.client core rest.hClient) (w'.client core rest.hClient)
  /-- The other objects are untouched. -/
  others : ∀ core' j, ¬(core' = core ∧ j = rest.hClient) → w'.client core' j = w.client core' j
  /-- The server stays ready. -/
  ready : Ready w'

/-- The end of an attach writes one object. -/
theorem storeClientId_effect {r : Request procs} {rest : Rest} {h : Handled procs}
    (hw : Ready w) (hport : rest.attachPort = some v)
    (he : CallbackEffect w x r.remoteProcId rest.hClient v h.world)
    (hcore : (h.world.client r.remoteProcId rest.hClient).coreId =
      if mtuOk w x r.remoteProcId then r.remoteProcId.val
      else (w.client r.remoteProcId rest.hClient).coreId) :
    FinishEffect w x r.remoteProcId rest (storeClientId r rest.hClient h).1 := by
  refine ⟨?_,?_,he.initDone.trans hw.1,he.hMcmCmdIf.trans hw.2⟩
  · unfold storeClientId
    rw [client_modifyClient_self]
    cases rest with
    | attach _ _ | attachExt _ _ =>
      obtain rfl := Option.some.inj hport
      exact ⟨he.inUse,he.isIdle,he.token,hcore⟩
    | detach _ | teardownCompletion _ => simp [Rest.attachPort] at hport
  · intro core' j hne
    unfold storeClientId
    rw [client_modifyClient,if_neg hne]
    by_cases hc : core' = r.remoteProcId
    · subst hc
      rw [he.table,update_of_ne fun hj => hne ⟨rfl,hj⟩]
    · rw [he.others core' hc]

theorem finishRequest_effect (hw : Ready w) (x : Outcomes) (r : Request procs) (rest : Rest) :
    FinishEffect w x r.remoteProcId rest (finishRequest w x r rest).1 := by
  cases rest with
  | attach v i =>
    have hport : (Rest.attach v i).attachPort = some v := rfl
    exact storeClientId_effect hw hport (attachHandlerCb_effect hw.1)
      (coreId_attachHandlerCb hw.1 true)
  | attachExt v i =>
    have hport : (Rest.attachExt v i).attachPort = some v := rfl
    exact storeClientId_effect hw hport (attachExtHandlerCb_effect hw.1)
      (coreId_attachExtHandlerCb hw.1)
  | detach i =>
    obtain ⟨-,-,hi,hm,-⟩ := releaseCore_effect w x r.remoteProcId
    have hready : getHandle (releaseCore w x r.remoteProcId).server = sok := by
      rw [getHandle,hi,hw.1]
      rfl
    have hworld : (finishRequest w x r (.detach i)).1 =
        (releaseCore w x r.remoteProcId).modifyClient r.remoteProcId i fun _ =>
          ClientObj.free := by
      simp only [finishRequest,detachHandlerCb,hw.1,hw.2,if_true,freeClient,hready]
    rw [hworld]
    refine ⟨client_modifyClient_self _ _ _ _,?_,hi.trans hw.1,hm.trans hw.2⟩
    intro core' j hne
    have hother : ¬(core' = r.remoteProcId ∧ j = i) := hne
    rw [client_modifyClient,if_neg hother,client_releaseCore]
  | teardownCompletion i =>
    refine ⟨client_modifyClient_self _ _ _ _,?_,hw⟩
    intro core' j hne
    exact (client_modifyClient _ _ _ _ _ _).trans (if_neg hne)

/-- An attach that succeeds has stored the token of its port, and its answer
carries it. -/
theorem finishRequest_attach_ok {r : Request procs} {rest : Rest} (hw : Ready w)
    (hport : rest.attachPort = some v) (hok : (finishRequest w x r rest).2.status = sok) :
    mtuOk w x r.remoteProcId = true ∧
      (finishRequest w x r rest).2.token = virtPort2Token v := by
  have hstored : ∀ {h : Handled procs} {i : Slot}, mtuOk w x r.remoteProcId = true →
      CallbackEffect w x r.remoteProcId i v h.world →
      (storeClientId r i h).2.token = virtPort2Token v := by
    intro h i hmtu he
    exact he.token.trans (if_pos hmtu)
  cases rest with
  | attach v' i =>
    obtain rfl := Option.some.inj hport
    have hmtu := (attachHandlerCb_status hw.1).mp hok
    exact ⟨hmtu,hstored hmtu (attachHandlerCb_effect hw.1)⟩
  | attachExt v' i =>
    obtain rfl := Option.some.inj hport
    have hmtu := ((attachExtHandlerCb_status hw.1).mp hok).1
    exact ⟨hmtu,hstored hmtu (attachExtHandlerCb_effect hw.1)⟩
  | detach _ | teardownCompletion _ => simp [Rest.attachPort] at hport

end Finish

end EthernetFirmware.ProxyServerTasks
