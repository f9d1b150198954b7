import EthernetFirmware.GuardedRuns
import EthernetFirmware.ProxyClientCommands
import EthernetFirmware.SlotTables

/-!
# Notifications of the proxy client

The client objects of a core and the handler that passes a notification of
the server on. The handler takes the first object in use that has the token
of the notification; a notification for which there is none is one of the
core. An object that was opened and not attached has the reserved token,
which is also the token of a notification of the core, and a detached one
keeps its token. Whether a client is attached is kept for the proofs only.
-/

namespace EthernetFirmware.ProxyClientNotify

open Function SlotTables RemoteConfig GuardedRuns
open ProxyClientCommands (clientMax MsgHdr MsgType)

/-- `ETHREMOTECFG_NOTIFY_FWINFO`. -/
def notifyFwinfo : U32 := 0#32

/-- `ETHREMOTECFG_NOTIFY_HWPUSH`. -/
def notifyHwpush : U32 := 1#32

/-- `ETHREMOTECFG_NOTIFY_HWERROR`. -/
def notifyHwerror : U32 := 2#32

/-- `ETHREMOTECFG_NOTIFY_HWRECOVERY_COMPLETE`. -/
def notifyHwrecoveryComplete : U32 := 3#32

/-- `ETHREMOTECFG_NOTIFY_TYPE_COUNT`. -/
def notifyTypeCount : U32 := 5#32

/-- Size of `EthRemoteCfg_NotifyServiceHwPushMsg`. -/
def hwPushMsgLen : U16 := 28#16

/-- `CpswProxy_NotifyCb`. -/
structure NotifyCb where
  /-- Callback function, if one is registered. -/
  cbFxn : Option ℕ
  /-- Its argument. -/
  cbArg : ℕ

/-- `CpswProxy_ClientObj`. -/
structure ClientObj where
  /-- The object is open. -/
  inUse : Bool
  /-- Token given by the server. -/
  token : U32
  /-- Callbacks by notification type, for types below the count. -/
  notifyCb : U32 → NotifyCb
  /-- The last attach or detach that succeeded was an attach. -/
  attached : Bool

/-- `CpswProxy_Obj`. -/
structure CpswProxy where
  /-- Client objects. -/
  clientObj : Fin clientMax → ClientObj
  /-- Time-sync callback. -/
  tsNotifyCb : NotifyCb

/-- A notification as it is received. -/
structure NotifyMsg where
  /-- Common header. -/
  common : MsgHdr
  /-- Notification type. -/
  notifyType : U32
  /-- Push number of a push notification. -/
  hwPushNum : U32
  /-- Time stamp of a push notification. -/
  timeStamp : BitVec 64
  /-- Length received. -/
  len : U16

/-- `TsCouplerClient_HwPushNotifyParams`. -/
structure HwPushNotifyParams where
  /-- Push number. -/
  hwPushNum : U32
  /-- Time stamp. -/
  timestamp : BitVec 64

/-- A callback that the handler calls. -/
inductive Upcall where
  /-- Function of a client object, with type and argument. -/
  | client (i : Fin clientMax) (cbFxn : ℕ) (notifyType : U32) (cbArg : ℕ)
  /-- Time-sync function, with type, parameters and argument. -/
  | timeSync (cbFxn : ℕ) (notifyType : U32) (notifyArg : HwPushNotifyParams) (cbArg : ℕ)

/-- An object cleared by `memset`. -/
def zeroObj : ClientObj := ⟨false,0#32,fun _ => ⟨none,0⟩,false⟩

/-- `CpswProxy_init`, as far as notifications need it. -/
def init (tsNotifyCb : NotifyCb) : CpswProxy :=
  ⟨fun _ => zeroObj,if tsNotifyCb.cbFxn.isSome then tsNotifyCb else ⟨none,0⟩⟩

/-- `CpswProxy_getHandle`. -/
def getHandle (o : CpswProxy) (token : U32) : Option (Fin clientMax) :=
  firstSlot (fun c => c.inUse && decide (c.token = token)) o.clientObj

/-- `CpswProxy_allocHandle`. -/
def allocHandle (o : CpswProxy) : Option (Fin clientMax) :=
  firstSlot (fun c => !c.inUse) o.clientObj

/-- Change one client object. -/
def setObj (o : CpswProxy) (i : Fin clientMax) (f : ClientObj → ClientObj) : CpswProxy :=
  { o with clientObj := update o.clientObj i (f (o.clientObj i)) }

/-- `CpswProxy_open`. -/
def openClient (o : CpswProxy) : CpswProxy :=
  match allocHandle o with
  | some i => setObj o i fun c => { c with inUse := true, token := tokenNone }
  | none => o

/-- `CpswProxy_close`. -/
def close (o : CpswProxy) (i : Fin clientMax) : CpswProxy := setObj o i fun _ => zeroObj

/-- `CpswProxy_attach` and `CpswProxy_attachExtended`, with the token of a
successful response. -/
def attach (o : CpswProxy) (i : Fin clientMax) (res : Option U32) : CpswProxy :=
  match res with
  | some token => setObj o i fun c => { c with token := token, attached := true }
  | none => o

/-- `CpswProxy_detach`, with the status of its command. -/
def detach (o : CpswProxy) (i : Fin clientMax) (status : Status) : CpswProxy :=
  if status = sok then setObj o i fun c => { c with attached := false } else o

/-- `CpswProxy_registerNotifyCb`. -/
def registerNotifyCb (o : CpswProxy) (i : Fin clientMax) (notifyType : U32) (cb : NotifyCb) :
    Status × CpswProxy :=
  if notifyType < notifyTypeCount then
    (sok,setObj o i fun c => { c with notifyCb := update c.notifyCb notifyType cb })
  else (einvalidParams,o)

/-- `CpswProxy_unregisterNotifyCb`. -/
def unregisterNotifyCb (o : CpswProxy) (i : Fin clientMax) (notifyType : U32) :
    Status × CpswProxy := registerNotifyCb o i notifyType ⟨none,0⟩

/-- `CpswProxy_notifyHandler`, with the callback it calls. -/
def notifyHandler (o : CpswProxy) (hdr : NotifyMsg) : Status × Option Upcall :=
  match getHandle o hdr.common.token with
  | some i =>
    if hdr.notifyType = notifyHwerror ∨ hdr.notifyType = notifyHwrecoveryComplete then
      let cb := (o.clientObj i).notifyCb hdr.notifyType
      (sok,cb.cbFxn.map fun f => .client i f hdr.notifyType cb.cbArg)
    else (ebadArgs,none)
  | none =>
    if hdr.notifyType = notifyHwpush then
      if hdr.len ≠ hwPushMsgLen then (einvalidParams,none)
      else
        (sok,o.tsNotifyCb.cbFxn.map fun f =>
          .timeSync f hdr.notifyType ⟨hdr.hwPushNum,hdr.timeStamp⟩ o.tsNotifyCb.cbArg)
    else (ebadArgs,none)

/-- Calls of the application and notifications of the server. -/
inductive Event where
  | openClient
  | close (i : Fin clientMax)
  | attach (i : Fin clientMax) (res : Option U32)
  | detach (i : Fin clientMax) (status : Status)
  | registerNotifyCb (i : Fin clientMax) (notifyType : U32) (cb : NotifyCb)
  | unregisterNotifyCb (i : Fin clientMax) (notifyType : U32)
  | notify (hdr : NotifyMsg)

/-- State after an event. -/
def step (o : CpswProxy) : Event → CpswProxy
  | .openClient => openClient o
  | .close i => close o i
  | .attach i res => attach o i res
  | .detach i status => detach o i status
  | .registerNotifyCb i notifyType cb => (registerNotifyCb o i notifyType cb).2
  | .unregisterNotifyCb i notifyType => (unregisterNotifyCb o i notifyType).2
  | .notify _ => o

/-- The client currently holds the token: it is open, and attached under it. -/
def Holds (o : CpswProxy) (i : Fin clientMax) (token : U32) : Prop :=
  (o.clientObj i).inUse = true ∧ (o.clientObj i).attached = true ∧ (o.clientObj i).token = token

/-- A notification of a push, as the server sends it. -/
def IsHwPush (hdr : NotifyMsg) : Prop :=
  hdr.common.token = tokenNone ∧ hdr.notifyType = notifyHwpush ∧ hdr.len = hwPushMsgLen

/-- The notification goes where it should. One of a push reaches the
time-sync callback that is registered. One with a token reaches every
callback that its holder has registered, and none of another client. -/
structure Delivered (o : CpswProxy) (hdr : NotifyMsg) : Prop where
  /-- A push is passed to the time-sync callback. -/
  push : IsHwPush hdr → ∀ f, o.tsNotifyCb.cbFxn = some f →
    (notifyHandler o hdr).2 =
      some (.timeSync f notifyHwpush ⟨hdr.hwPushNum,hdr.timeStamp⟩ o.tsNotifyCb.cbArg)
  /-- The holder of the token gets the notification. -/
  holder : hdr.common.token ≠ tokenNone → ∀ i, Holds o i hdr.common.token →
    ∀ f, ((o.clientObj i).notifyCb hdr.notifyType).cbFxn = some f →
      (notifyHandler o hdr).2 =
        some (.client i f hdr.notifyType ((o.clientObj i).notifyCb hdr.notifyType).cbArg)
  /-- No other client gets it. -/
  noOther : hdr.common.token ≠ tokenNone → ∀ i f ty arg,
    (notifyHandler o hdr).2 = some (.client i f ty arg) → Holds o i hdr.common.token

/-- A notification event is delivered. -/
def EventOk (o : CpswProxy) : Event → Prop
  | .notify hdr => Delivered o hdr
  | _ => True

/-- The client object answers to the token. -/
def Answers (o : CpswProxy) (i : Fin clientMax) (token : U32) : Prop :=
  (o.clientObj i).inUse = true ∧ (o.clientObj i).token = token

/-- The client has a callback for the type. -/
def Registered (o : CpswProxy) (i : Fin clientMax) (notifyType : U32) : Prop :=
  ((o.clientObj i).notifyCb notifyType).cbFxn ≠ none

/-- When a notification goes where it should. -/
structure Reaches (o : CpswProxy) (hdr : NotifyMsg) : Prop where
  /-- At a push, no open client has the reserved token. -/
  push : IsHwPush hdr → o.tsNotifyCb.cbFxn ≠ none → ∀ i, ¬ Answers o i tokenNone
  /-- A holder with a callback is the first client with the token, and the
  type is one the handler knows. -/
  holder : hdr.common.token ≠ tokenNone → ∀ i, Holds o i hdr.common.token →
    Registered o i hdr.notifyType →
    (hdr.notifyType = notifyHwerror ∨ hdr.notifyType = notifyHwrecoveryComplete) ∧
      ∀ j < i, ¬ Answers o j hdr.common.token
  /-- The first client with the token is a holder if it has a callback for a
  type that the handler knows. -/
  noOther : hdr.common.token ≠ tokenNone →
    (hdr.notifyType = notifyHwerror ∨ hdr.notifyType = notifyHwrecoveryComplete) →
    ∀ i, Answers o i hdr.common.token → (∀ j < i, ¬ Answers o j hdr.common.token) →
      Registered o i hdr.notifyType → (o.clientObj i).attached = true

/-- A notification event meets the condition. -/
def EventReaches (o : CpswProxy) : Event → Prop
  | .notify hdr => Reaches o hdr
  | _ => True

section Handler

variable {o : CpswProxy} {hdr : NotifyMsg} {i : Fin clientMax} {token : U32}

theorem getHandle_eq_some_iff :
    getHandle o token = some i ↔ Answers o i token ∧ ∀ j < i, ¬ Answers o j token := by
  unfold getHandle Answers
  rw [firstSlot_eq_some_iff]
  refine and_congr (by simp) (forall_congr' fun j => forall_congr' fun _ => ?_)
  rw [← Bool.not_eq_true]
  simp

theorem getHandle_eq_none_iff : getHandle o token = none ↔ ∀ i, ¬ Answers o i token := by
  unfold getHandle Answers
  rw [firstSlot_eq_none_iff]
  refine forall_congr' fun i => ?_
  rw [← Bool.not_eq_true]
  simp

/-- The type is one that the handler passes to a client. -/
def Known (notifyType : U32) : Prop :=
  notifyType = notifyHwerror ∨ notifyType = notifyHwrecoveryComplete

theorem not_known_hwpush : ¬ Known notifyHwpush := by
  unfold Known
  decide

/-- A client's callback is called exactly when it is the first client with
the token, the type is known and the callback is registered. -/
theorem notifyHandler_client_iff {f : ℕ} {ty : U32} {arg : ℕ} :
    (notifyHandler o hdr).2 = some (.client i f ty arg) ↔
      (Known hdr.notifyType ∧ getHandle o hdr.common.token = some i) ∧
      ((o.clientObj i).notifyCb hdr.notifyType).cbFxn = some f ∧ ty = hdr.notifyType ∧
      arg = ((o.clientObj i).notifyCb hdr.notifyType).cbArg := by
  unfold notifyHandler
  cases hget : getHandle o hdr.common.token with
  | none =>
    refine iff_of_false (fun h => ?_) fun h => absurd h.1.2 (by simp)
    dsimp only at h
    split at h
    · split at h
      · exact absurd h (by simp)
      · exact absurd h (by simp)
    · exact absurd h (by simp)
  | some k =>
    by_cases hk : Known hdr.notifyType
    · unfold Known at hk
      simp only [if_pos hk,Option.map_eq_some_iff,Upcall.client.injEq,Option.some.injEq]
      constructor
      · rintro ⟨f',hf,rfl,rfl,rfl,rfl⟩
        exact ⟨⟨hk,rfl⟩,hf,rfl,rfl⟩
      · rintro ⟨⟨-,rfl⟩,hf,rfl,rfl⟩
        exact ⟨f,hf,rfl,rfl,rfl,rfl⟩
    · refine iff_of_false (fun h => ?_) fun h => hk h.1.1
      unfold Known at hk
      simp only [if_neg hk] at h
      exact absurd h (by simp)

/-- A push that no client answers to is passed on. -/
theorem notifyHandler_push (hp : IsHwPush hdr) (hno : ∀ i, ¬ Answers o i tokenNone) :
    (notifyHandler o hdr).2 = o.tsNotifyCb.cbFxn.map fun f =>
      .timeSync f notifyHwpush ⟨hdr.hwPushNum,hdr.timeStamp⟩ o.tsNotifyCb.cbArg := by
  obtain ⟨htok,hty,hlen⟩ := hp
  unfold notifyHandler
  rw [htok,getHandle_eq_none_iff.mpr hno]
  dsimp only
  rw [if_pos hty,if_neg (not_not.mpr hlen),hty]

/-- A push that a client answers to is lost. -/
theorem notifyHandler_push_lost (hp : IsHwPush hdr) (hi : Answers o i tokenNone) :
    notifyHandler o hdr = (ebadArgs,none) := by
  obtain ⟨htok,hty,-⟩ := hp
  unfold notifyHandler
  rw [htok]
  cases hget : getHandle o tokenNone with
  | none => exact absurd hi (getHandle_eq_none_iff.mp hget i)
  | some j =>
    dsimp only
    rw [hty]
    exact if_neg not_known_hwpush

theorem answers_of_holds (h : Holds o i token) : Answers o i token := ⟨h.1,h.2.2⟩

/-- In every state of the client objects, a notification goes where it
should exactly when it reaches its place. -/
theorem delivered_iff : Delivered o hdr ↔ Reaches o hdr := by
  constructor
  · intro h
    refine ⟨fun hp hts i hi => ?_,fun htok i hi hreg => ?_,fun htok hk i hi hfirst hreg => ?_⟩
    · obtain ⟨f,hf⟩ := Option.ne_none_iff_exists'.mp hts
      have hup := h.push hp f hf
      rw [notifyHandler_push_lost hp hi] at hup
      exact absurd hup.symm (Option.some_ne_none _)
    · obtain ⟨f,hf⟩ := Option.ne_none_iff_exists'.mp hreg
      have hup := (notifyHandler_client_iff.mp (h.holder htok i hi f hf)).1
      exact ⟨hup.1,(getHandle_eq_some_iff.mp hup.2).2⟩
    · obtain ⟨f,hf⟩ := Option.ne_none_iff_exists'.mp hreg
      have hup := notifyHandler_client_iff.mpr
        ⟨⟨hk,getHandle_eq_some_iff.mpr ⟨hi,hfirst⟩⟩,hf,rfl,rfl⟩
      exact (h.noOther htok i f _ _ hup).2.1
  · intro h
    refine ⟨fun hp f hf => ?_,fun htok i hi f hf => ?_,fun htok i f ty arg hup => ?_⟩
    · have hts : o.tsNotifyCb.cbFxn ≠ none := by
        rw [hf]
        exact Option.some_ne_none f
      rw [notifyHandler_push hp (h.push hp hts),hf]
      rfl
    · have hreg : Registered o i hdr.notifyType := by
        unfold Registered
        rw [hf]
        exact Option.some_ne_none f
      obtain ⟨hk,hfirst⟩ := h.holder htok i hi hreg
      exact notifyHandler_client_iff.mpr
        ⟨⟨hk,getHandle_eq_some_iff.mpr ⟨answers_of_holds hi,hfirst⟩⟩,hf,rfl,rfl⟩
    · obtain ⟨⟨hk,hget⟩,hf,-,-⟩ := notifyHandler_client_iff.mp hup
      obtain ⟨hi,hfirst⟩ := getHandle_eq_some_iff.mp hget
      have hreg : Registered o i hdr.notifyType := by
        unfold Registered
        rw [hf]
        exact Option.some_ne_none f
      exact ⟨hi.1,h.noOther htok hk i hi hfirst hreg,hi.2⟩

end Handler

section Histories

variable {o : CpswProxy} {i j : Fin clientMax} {token : U32}

theorem setObj_self (f : ClientObj → ClientObj) :
    (setObj o i f).clientObj i = f (o.clientObj i) := update_self ..

theorem setObj_of_ne (f : ClientObj → ClientObj) (h : j ≠ i) :
    (setObj o i f).clientObj j = o.clientObj j := update_of_ne h ..

theorem answers_setObj_of_ne {f : ClientObj → ClientObj} (h : Answers o i token) (hji : j ≠ i) :
    Answers (setObj o j f) i token := by
  unfold Answers
  rw [setObj_of_ne f hji.symm]
  exact h

/-- Changing neither use nor token of a client leaves all answers alone. -/
theorem answers_setObj {f : ClientObj → ClientObj} (h : Answers o i token)
    (huse : ∀ c, (f c).inUse = c.inUse) (htok : ∀ c, (f c).token = c.token) :
    Answers (setObj o j f) i token := by
  by_cases hji : j = i
  · subst hji
    unfold Answers
    rw [setObj_self,huse,htok]
    exact h
  · exact answers_setObj_of_ne h hji

theorem answers_registerNotifyCb {ty : U32} {cb : NotifyCb} (h : Answers o i token) :
    Answers (registerNotifyCb o j ty cb).2 i token := by
  unfold registerNotifyCb
  split
  · exact answers_setObj (f := fun c => { c with notifyCb := update c.notifyCb ty cb }) h
      (fun _ => rfl) fun _ => rfl
  · exact h

/-- The event neither closes the client nor attaches it. -/
def Spares (i : Fin clientMax) : Event → Prop
  | .close j => j ≠ i
  | .attach j res => res ≠ none → j ≠ i
  | _ => True

/-- A client answers to its token until it is closed or attached again. -/
theorem answers_step (h : Answers o i token) {e : Event} (he : Spares i e) :
    Answers (step o e) i token := by
  cases e with
  | openClient =>
    unfold step openClient
    dsimp only
    cases ha : allocHandle o with
    | none => exact h
    | some j =>
      have hfree := (firstSlot_eq_some_iff.mp ha).1
      refine answers_setObj_of_ne h ?_
      rintro rfl
      rw [h.1] at hfree
      exact absurd hfree (by decide)
  | close j => exact answers_setObj_of_ne (f := fun _ => zeroObj) h he
  | attach j res =>
    cases res with
    | none => exact h
    | some t =>
      exact answers_setObj_of_ne (f := fun c => { c with token := t, attached := true }) h
        (he (Option.some_ne_none t))
  | detach j status =>
    unfold step detach
    dsimp only
    split
    · exact answers_setObj h (fun _ => rfl) fun _ => rfl
    · exact h
  | registerNotifyCb j ty cb => exact answers_registerNotifyCb h
  | unregisterNotifyCb j ty => exact answers_registerNotifyCb h
  | notify hdr => exact h

/-- An opened client answers to the reserved token. -/
theorem answers_openClient (h : allocHandle o = some i) : Answers (openClient o) i tokenNone := by
  unfold openClient
  rw [h]
  unfold Answers
  dsimp only
  rw [setObj_self]
  exact ⟨rfl,rfl⟩

/-- From the opening of a client on, every push is lost until the client is
attached or closed. -/
theorem push_lost_until_attached (h : allocHandle o = some i) {events : List Event}
    (he : ∀ e ∈ events, Spares i e) {hdr : NotifyMsg} (hp : IsHwPush hdr) :
    notifyHandler (run step (openClient o) events) hdr = (ebadArgs,none) := by
  have halong : Along step (fun o => Answers o i tokenNone) (openClient o) events :=
    along_of_guarded (G := fun _ e => Spares i e) (fun _ _ h he => answers_step h he)
      (answers_openClient h) (guarded_const_iff.mpr he)
  exact notifyHandler_push_lost hp (along_final halong)

end Histories

/-- From every state of the client objects and for every history of calls and
notifications, all notifications go where they should exactly when each
reaches its place. -/
theorem notifications_delivered_iff (o : CpswProxy) (events : List Event) :
    Guarded step EventOk o events ↔ Guarded step EventReaches o events := by
  refine guarded_congr fun o e => ?_
  cases e with
  | notify hdr => exact delivered_iff
  | _ => exact Iff.rfl

/-- Push 1 at time 0. -/
def pushOne : NotifyMsg :=
  ⟨⟨tokenNone,0#32,.notify⟩,notifyHwpush,1#32,0#64,hwPushMsgLen⟩

/-- A push that arrives when one client is attached and the other one only
opened is lost. -/
theorem push_lost_before_second_attach :
    ¬ Guarded step EventOk (init ⟨some 1,0⟩)
      [.openClient,.attach 0 (some 5#32),.openClient,.notify pushOne] := by
  intro h
  have hup := h.2.2.2.1.push ⟨rfl,rfl,rfl⟩ 1 rfl
  rw [notifyHandler_push_lost (i := 1) ⟨rfl,rfl,rfl⟩ ⟨by decide,by decide⟩] at hup
  exact absurd hup.symm (Option.some_ne_none _)

end EthernetFirmware.ProxyClientNotify
