import EthernetFirmware.ProxyClientCommands
import Mathlib.Data.List.Induction

/-!
# Matching of responses to commands

A command that returns success should hand its caller the response the
server produced for that very request. The wait loop compares request
ids only, and ids are counted for each client object while the mailbox is
shared, so a late response to another client's command can be taken for
the response of a new one.

`SafeSend` is a condition on the state in which a command is sent: among
the messages and requests still under way none can be taken for its
response. It is exact: when every command of a run is sent under it,
every success of the run is matched, and a command sent outside it can
return success with a foreign response however the run went before.
-/

namespace EthernetFirmware.ProxyClientMatching

open RemoteConfig GuardedRuns ProxyClientCommands

/-- The header of the message is an answer to the request. The response
to an attach carries the token the server has just given. -/
def Answers (q : ReqHdr) (m : Msg) : Prop :=
  m.hdr.resType = q.reqType ∧ m.hdr.resId = q.reqId ∧
    (attaches q.reqType = false → m.hdr.common.token = q.common.token)

instance (q : ReqHdr) (m : Msg) : Decidable (Answers q m) :=
  inferInstanceAs (Decidable (_ ∧ _ ∧ _))

/-- A finished command that succeeded has copied the response produced
for its own request. -/
def ReturnMatched (s : State) (r : Return) : Prop :=
  r.status = sok → ∃ m ∈ r.res, (r.req,m) ∈ s.served ∧ Answers r.req.hdr m

/-- Every finished command is matched. -/
def Matched (s : State) : Prop := ∀ r ∈ s.returned, ReturnMatched s r

/-- A command that waits for this id and length returns success with the
message. -/
def Accepts (reqId : U32) (len : U16) (m : Msg) : Prop :=
  m.hdr.resId = reqId ∧ m.len = len ∧ m.hdr.status = sok

/-- The first message of the mailbox that the wait loop does not drop. -/
def firstKept (mbx : List Msg) (reqId : U32) : Option Msg :=
  mbx.find? fun m => !decide (m.hdr.resId < reqId)

/-- Every response in flight that a command waiting for this id and
length accepts satisfies `R`, and every request at the server whose answer
it may accept satisfies `Q`. -/
def Underway (s : State) (reqId : U32) (len : U16) (R : Msg → Prop) (Q : Request → Prop) :
    Prop :=
  (∀ w ∈ s.net, isResponse s w = true → Accepts reqId len w.msg → R w.msg) ∧
    ∀ q ∈ s.toServer, q.hdr.reqId = reqId → resLen q.hdr.reqType = len → Q q

/-- Whatever a command waiting for this id and length can accept is as
foreseen: the message its loop stops at, if the mailbox has one, else what
is still under way. -/
def Foreseen (s : State) (reqId : U32) (len : U16) (R : Msg → Prop) (Q : Request → Prop) :
    Prop :=
  match firstKept s.mbx reqId with
  | some m => Accepts reqId len m → R m
  | none => Underway s reqId len R Q

/-- A command is sent only when nothing under way can be taken for its
response. -/
def SafeSend (s : State) : Event → Prop
  | .sendCmd c _ len sendStatus _ =>
    s.call = none → sendStatus = sok →
      Foreseen s (s.clients c).reqId len (fun _ => False) (fun _ => False)
  | _ => True

/-- The records of the proofs are consistent. -/
structure Ledger (s : State) : Prop where
  /-- Answered requests were sent. -/
  served_sent : ∀ p ∈ s.served, p.1.serial < s.sent
  /-- Waiting requests were sent. -/
  queued_sent : ∀ q ∈ s.toServer, q.serial < s.sent
  /-- Answers have the header of their request. -/
  answers : ∀ p ∈ s.served, Answers p.1.hdr p.2

/-- What a waiting command can still accept is its own response. -/
def CallSafe (s : State) (k : Call) : Prop :=
  k.status = sok →
    Foreseen s k.req.hdr.reqId k.resLen (fun m => (k.req,m) ∈ s.served) (fun q => q = k.req)

/-- Invariant of the runs whose commands are sent safely. -/
structure Inv (s : State) : Prop where
  /-- The records are consistent. -/
  ledger : Ledger s
  /-- The command under way is safe. -/
  callSafe : ∀ k, s.call = some k → CallSafe s k
  /-- The finished commands are matched. -/
  matched : Matched s

theorem answers_response (q : ReqHdr) (a : Answer) : Answers q (response q a) :=
  ⟨rfl,rfl,fun h => by simp [response,h]⟩

theorem cmdHandlerTask_eq (s : State) (w : Wire) :
    cmdHandlerTask s w = if isResponse s w then cmdHandler s w.msg else s := by
  unfold cmdHandlerTask isResponse
  by_cases hs : w.source = s.master
  · cases hm : w.msg.hdr.common.msgType <;> simp [hs]
  · simp [hs]

/-! ## What a step changes -/

/-- Start of a command: nothing while another one holds the mutex, a
finished command when the request cannot be sent, else a waiting one. -/
theorem sendCmd_cases (s : State) (c : Fin clientMax) (t : CmdType) (len : U16) (st : Status)
    (stack : Msg) :
    s.call ≠ none ∧ sendCmd s c t len st stack = s ∨
      s.call = none ∧ st ≠ sok ∧
        sendCmd s c t len st stack =
          { countRequest s c with
            call := none
            returned := s.returned ++ [⟨request s c t,st,none⟩] } ∨
      s.call = none ∧ st = sok ∧
        sendCmd s c t len st stack =
          { countRequest s c with
            call := some ⟨c,request s c t,len,sok,stack⟩
            toServer := s.toServer ++ [request s c t] } := by
  unfold sendCmd
  cases hc : s.call with
  | some k => exact Or.inl ⟨by simp,rfl⟩
  | none =>
    by_cases hst : st = sok
    · exact Or.inr (Or.inr ⟨rfl,hst,by simp [hst]⟩)
    · refine Or.inr (Or.inl ⟨rfl,hst,?_⟩)
      simp [hst,returnCmd,saveToken,result,countRequest]

/-- A success returned is that of a message the command accepts. -/
theorem result_sok {k : Call} (h : (result k).1 = sok) (hle : ¬ k.msg.hdr.resId < k.req.hdr.reqId) :
    k.status = sok ∧ Accepts k.req.hdr.reqId k.resLen k.msg ∧ (result k).2 = some k.msg := by
  unfold result at h ⊢
  split_ifs at h ⊢ with hst hlen hid
  · exact absurd h eunexpected_ne_sok
  · exact absurd h eunexpected_ne_sok
  · have heq : k.msg.hdr.resId = k.req.hdr.reqId := by
      apply BitVec.le_antisymm
      · exact BitVec.not_lt.mp hid
      · exact BitVec.not_lt.mp hle
    exact ⟨hst,⟨heq,not_not.mp hlen,h⟩,rfl⟩
  · exact absurd h hst

/-- An accepted message is returned. -/
theorem result_of_accepts {k : Call} (hst : k.status = sok)
    (h : Accepts k.req.hdr.reqId k.resLen k.msg) : result k = (sok,some k.msg) := by
  obtain ⟨hid,hlen,hok⟩ := h
  simp [result,hst,hid,hlen,hok,BitVec.lt_irrefl]

/-- A wait: the buffer and the mailbox after it. -/
theorem waitResponse_cases (s : State) (p : Pend) :
    waitResponse s p = s ∨
      ∃ k k' ms, s.call = some k ∧ pendMailbox s.mbx k p = some (k',ms) ∧
        (k'.msg.hdr.resId < k'.req.hdr.reqId ∧
            waitResponse s p = { s with call := some k', mbx := ms } ∨
          ¬ k'.msg.hdr.resId < k'.req.hdr.reqId ∧
            waitResponse s p = returnCmd { s with mbx := ms } k') := by
  unfold waitResponse
  cases hc : s.call with
  | none => exact Or.inl rfl
  | some k =>
    cases hp : pendMailbox s.mbx k p with
    | none => exact Or.inl (by simp [hp])
    | some r =>
      obtain ⟨k',ms⟩ := r
      refine Or.inr ⟨k,k',ms,rfl,hp,?_⟩
      by_cases hlt : k'.msg.hdr.resId < k'.req.hdr.reqId
      · exact Or.inl ⟨hlt,by simp [hp,hlt]⟩
      · exact Or.inr ⟨hlt,by simp [hp,hlt]⟩

/-- After a wait a command keeps its request and length; it still has a
status of success only when it has just taken the oldest message. -/
theorem pendMailbox_spec {mbx ms : List Msg} {k k' : Call} {p : Pend}
    (h : pendMailbox mbx k p = some (k',ms)) :
    k'.req = k.req ∧ k'.resLen = k.resLen ∧
      (k'.status = sok → k.status = sok ∧ mbx = k'.msg :: ms) := by
  cases p with
  | success =>
    cases mbx with
    | nil => simp [pendMailbox] at h
    | cons m ms' =>
      simp only [pendMailbox,Option.some.injEq,Prod.mk.injEq] at h
      obtain ⟨rfl,rfl⟩ := h
      exact ⟨rfl,rfl,fun hst => ⟨hst,rfl⟩⟩
  | timeout =>
    simp only [pendMailbox,Option.some.injEq,Prod.mk.injEq] at h
    obtain ⟨rfl,rfl⟩ := h
    exact ⟨rfl,rfl,fun hst => absurd hst etimeout_ne_sok⟩
  | failure =>
    simp only [pendMailbox,Option.some.injEq,Prod.mk.injEq] at h
    obtain ⟨rfl,rfl⟩ := h
    exact ⟨rfl,rfl,fun hst => absurd hst efail_ne_sok⟩

/-- A receipt takes one message out of the network and posts it only if it
is a response of the server. -/
theorem receive_cases (s : State) (i : ℕ) :
    receive s i = s ∨
      ∃ w, s.net[i]? = some w ∧
        (isResponse s w = true ∧
            receive s i = { s with net := s.net.eraseIdx i, mbx := s.mbx ++ [w.msg] } ∨
          isResponse s w = false ∧ receive s i = { s with net := s.net.eraseIdx i }) := by
  unfold receive
  cases hw : s.net[i]? with
  | none => exact Or.inl rfl
  | some w =>
    by_cases hlen : s.mbx.length < cmdResMbxMsgCount
    · refine Or.inr ⟨w,rfl,?_⟩
      simp only [hlen,if_true,cmdHandlerTask_eq]
      cases hr : isResponse s w with
      | true => exact Or.inl ⟨rfl,if_pos hr⟩
      | false => exact Or.inr ⟨rfl,if_neg (by simpa [isResponse] using hr)⟩
    · exact Or.inl (if_neg hlen)

/-! ## What a waiting command can accept -/

section

variable {s s' : State} {reqId : U32} {len : U16} {R R' : Msg → Prop} {Q Q' : Request → Prop}

theorem firstKept_cons_lt {m : Msg} {ms : List Msg} (h : m.hdr.resId < reqId) :
    firstKept (m :: ms) reqId = firstKept ms reqId := by
  simp [firstKept,h]

theorem firstKept_cons_not_lt {m : Msg} {ms : List Msg} (h : ¬ m.hdr.resId < reqId) :
    firstKept (m :: ms) reqId = some m := by
  simp [firstKept,h]

theorem firstKept_append {mbx : List Msg} {m : Msg} :
    firstKept (mbx ++ [m]) reqId = (firstKept mbx reqId).or (firstKept [m] reqId) :=
  List.find?_append

theorem foreseen_some {m : Msg} (hm : firstKept s.mbx reqId = some m) :
    Foreseen s reqId len R Q ↔ (Accepts reqId len m → R m) := by
  rw [Foreseen,hm]

theorem foreseen_none (hm : firstKept s.mbx reqId = none) :
    Foreseen s reqId len R Q ↔ Underway s reqId len R Q := by
  rw [Foreseen,hm]

theorem isResponse_congr (h : s'.master = s.master) (w : Wire) :
    isResponse s' w = isResponse s w := by
  rw [isResponse,isResponse,h]

theorem foreseen_mono (h : Foreseen s reqId len R Q) (hR : ∀ m, R m → R' m)
    (hQ : ∀ q, Q q → Q' q) : Foreseen s reqId len R' Q' := by
  cases hm : firstKept s.mbx reqId with
  | some m =>
    rw [foreseen_some hm] at h ⊢
    exact fun ha => hR m (h ha)
  | none =>
    rw [foreseen_none hm] at h ⊢
    exact ⟨fun w hw hr ha => hR _ (h.1 w hw hr ha),fun q hq hid hlen => hQ q (h.2 q hq hid hlen)⟩

/-- A step that leaves the message the loop stops at keeps what is
foreseen when it keeps what is under way. -/
theorem foreseen_step (h : Foreseen s reqId len R Q)
    (hkept : firstKept s'.mbx reqId = firstKept s.mbx reqId)
    (hunder : Underway s reqId len R Q → Underway s' reqId len R Q) :
    Foreseen s' reqId len R Q := by
  cases hm : firstKept s.mbx reqId with
  | some m =>
    rw [foreseen_some hm] at h
    rwa [foreseen_some (hkept.trans hm)]
  | none =>
    rw [foreseen_none hm] at h
    rw [foreseen_none (hkept.trans hm)]
    exact hunder h

/-- No more is under way when no response of the server is added and the
requests that wait there stay the same. -/
theorem underway_of_net (hmaster : s'.master = s.master) (hqueue : s'.toServer = s.toServer)
    (hnet : ∀ w ∈ s'.net, isResponse s w = true → w ∈ s.net)
    (h : Underway s reqId len R Q) : Underway s' reqId len R Q := by
  refine ⟨fun w hw hr => ?_,fun q hq => h.2 q (hqueue ▸ hq)⟩
  rw [isResponse_congr hmaster] at hr
  exact h.1 w (hnet w hw hr) hr

/-- A request sent adds itself. -/
theorem underway_send {q : Request} (hq : Q q) (hmaster : s'.master = s.master)
    (hnet : s'.net = s.net) (hqueue : s'.toServer = s.toServer ++ [q])
    (h : Underway s reqId len R Q) : Underway s' reqId len R Q := by
  constructor
  · intro w hw hr
    exact h.1 w (hnet ▸ hw) (isResponse_congr hmaster w ▸ hr)
  · intro q' hq' hid hlen
    rw [hqueue] at hq'
    rcases List.mem_append.mp hq' with hold | hnew
    · exact h.2 q' hold hid hlen
    · rwa [List.mem_singleton.mp hnew]

/-- The answer to the oldest request takes its place. -/
theorem underway_serve {q : Request} {qs : List Request} {m : Msg}
    (hq : s.toServer = q :: qs)
    (hm : Accepts reqId len m → q.hdr.reqId = reqId ∧ resLen q.hdr.reqType = len)
    (hR : Q q → R m) (hmaster : s'.master = s.master) (hqueue : s'.toServer = qs)
    (hnet : s'.net = s.net ++ [⟨s.master,m⟩]) (h : Underway s reqId len R Q) :
    Underway s' reqId len R Q := by
  constructor
  · intro w hw hr ha
    rw [hnet] at hw
    rcases List.mem_append.mp hw with hold | hnew
    · exact h.1 w hold (isResponse_congr hmaster w ▸ hr) ha
    · rw [List.mem_singleton.mp hnew] at ha ⊢
      exact hR (h.2 q (hq ▸ List.mem_cons_self) (hm ha).1 (hm ha).2)
  · intro q' hq'
    rw [hqueue] at hq'
    exact h.2 q' (hq ▸ List.mem_cons_of_mem q hq')

/-- A response taken out of the network is accepted only as foreseen. -/
theorem foreseen_post {w : Wire} (h : Foreseen s reqId len R Q) (hw : w ∈ s.net)
    (hr : isResponse s w = true) (hmaster : s'.master = s.master)
    (hmbx : s'.mbx = s.mbx ++ [w.msg]) (hqueue : s'.toServer = s.toServer)
    (hnet : ∀ w' ∈ s'.net, w' ∈ s.net) : Foreseen s' reqId len R Q := by
  have hpost : firstKept s'.mbx reqId =
      (firstKept s.mbx reqId).or (firstKept [w.msg] reqId) := by
    rw [hmbx,firstKept_append]
  by_cases hnew : firstKept s.mbx reqId = none ∧ ¬ w.msg.hdr.resId < reqId
  · rw [foreseen_none hnew.1] at h
    rw [hnew.1,Option.none_or,firstKept_cons_not_lt hnew.2] at hpost
    rw [foreseen_some hpost]
    exact h.1 w hw hr
  · have hkept : firstKept s'.mbx reqId = firstKept s.mbx reqId := by
      rw [hpost]
      cases hm : firstKept s.mbx reqId with
      | some m => rfl
      | none => exact firstKept_cons_lt (not_not.mp fun hlt => hnew ⟨hm,hlt⟩)
    exact foreseen_step h hkept
      (underway_of_net hmaster hqueue fun w' hw' _ => hnet w' hw')

end

/-! ## The invariant -/

theorem ledger_start (master : Source) : Ledger (start master) :=
  ⟨by simp [start],by simp [start],by simp [start]⟩

theorem inv_start (master : Source) : Inv (start master) :=
  ⟨ledger_start master,by simp [start],by simp [start,Matched]⟩

/-- A step that answers nothing and sends nothing keeps the records. -/
theorem ledger_of_same {s s' : State} (h : Ledger s) (hsent : s.sent ≤ s'.sent)
    (hserved : s'.served = s.served) (hqueue : s'.toServer = s.toServer) : Ledger s' where
  served_sent p hp := lt_of_lt_of_le (h.served_sent p (hserved ▸ hp)) hsent
  queued_sent q hq := lt_of_lt_of_le (h.queued_sent q (hqueue ▸ hq)) hsent
  answers p hp := h.answers p (hserved ▸ hp)

/-- Finished commands stay matched as the record of answers grows. -/
theorem matched_of_same {s s' : State} (h : Matched s) (hret : s'.returned = s.returned)
    (hserved : ∀ p ∈ s.served, p ∈ s'.served) : Matched s' := by
  intro r hr hst
  rw [hret] at hr
  obtain ⟨m,hm,hmem,hans⟩ := h r hr hst
  exact ⟨m,hm,hserved _ hmem,hans⟩

theorem matched_append {s s' : State} {r : Return} (h : Matched s)
    (hret : s'.returned = s.returned ++ [r]) (hserved : s'.served = s.served)
    (hr : ReturnMatched s' r) : Matched s' := by
  intro r' hr'
  rw [hret] at hr'
  rcases List.mem_append.mp hr' with hold | hnew
  · intro hst
    obtain ⟨m,hm,hmem,hans⟩ := h r' hold hst
    exact ⟨m,hm,hserved ▸ hmem,hans⟩
  · rwa [List.mem_singleton.mp hnew]

/-- A step of the network or of the objects keeps the invariant when it
adds no response of the server. -/
theorem inv_of_net {s s' : State} (h : Inv s) (hmaster : s'.master = s.master)
    (hcall : s'.call = s.call) (hqueue : s'.toServer = s.toServer) (hmbx : s'.mbx = s.mbx)
    (hsent : s'.sent = s.sent) (hserved : s'.served = s.served)
    (hret : s'.returned = s.returned)
    (hnet : ∀ w ∈ s'.net, isResponse s w = true → w ∈ s.net) : Inv s' where
  ledger := ledger_of_same h.ledger hsent.ge hserved hqueue
  callSafe k hk hst := by
    rw [hserved]
    exact foreseen_step (h.callSafe k (hcall ▸ hk) hst) (by rw [hmbx])
      (underway_of_net hmaster hqueue hnet)
  matched := matched_of_same h.matched hret fun p hp => hserved.symm ▸ hp

theorem inv_sendCmd {s : State} (h : Inv s) (c : Fin clientMax) (t : CmdType) (len : U16)
    (st : Status) (stack : Msg) (hsafe : SafeSend s (.sendCmd c t len st stack)) :
    Inv (sendCmd s c t len st stack) := by
  rcases sendCmd_cases s c t len st stack with ⟨-,heq⟩ | ⟨-,hst,heq⟩ | ⟨hc,hst,heq⟩
  · rwa [heq]
  · rw [heq]
    refine ⟨ledger_of_same h.ledger (Nat.le_succ _) rfl rfl,fun k hk => by simp at hk,?_⟩
    exact matched_append h.matched rfl rfl fun hok => absurd hok hst
  · rw [heq]
    refine ⟨⟨?_,?_,h.ledger.answers⟩,?_,matched_of_same h.matched rfl fun _ hp => hp⟩
    · exact fun p hp => Nat.lt_succ_of_lt (h.ledger.served_sent p hp)
    · intro q hq
      rcases List.mem_append.mp hq with hold | hnew
      · exact Nat.lt_succ_of_lt (h.ledger.queued_sent q hold)
      · rw [List.mem_singleton.mp hnew]
        exact Nat.lt_succ_self s.sent
    · intro k hk _
      obtain rfl := Option.some.inj hk
      have hforeseen : Foreseen s (s.clients c).reqId len
          (fun m => (request s c t,m) ∈ s.served) (fun q => q = request s c t) :=
        foreseen_mono (hsafe hc hst) (fun _ => False.elim) fun _ => False.elim
      exact foreseen_step hforeseen rfl (underway_send rfl rfl rfl rfl)

theorem inv_serve {s : State} (h : Inv s) (a : Answer) : Inv (serve s a) := by
  unfold serve
  cases hq : s.toServer with
  | nil => exact h
  | cons q qs =>
    have hmem : ∀ p ∈ s.served, p ∈ s.served ++ [(q,response q.hdr a)] :=
      fun p hp => List.mem_append_left _ hp
    refine ⟨⟨?_,?_,?_⟩,?_,matched_of_same h.matched rfl hmem⟩
    · intro p hp
      rcases List.mem_append.mp hp with hold | hnew
      · exact h.ledger.served_sent p hold
      · rw [List.mem_singleton.mp hnew]
        exact h.ledger.queued_sent q (hq ▸ List.mem_cons_self)
    · exact fun q' hq' => h.ledger.queued_sent q' (hq ▸ List.mem_cons_of_mem q hq')
    · intro p hp
      rcases List.mem_append.mp hp with hold | hnew
      · exact h.ledger.answers p hold
      · rw [List.mem_singleton.mp hnew]
        exact answers_response q.hdr a
    · intro k hk hst
      have hold : Foreseen s k.req.hdr.reqId k.resLen
          (fun m => (k.req,m) ∈ s.served ++ [(q,response q.hdr a)]) (fun q => q = k.req) :=
        foreseen_mono (h.callSafe k hk hst) (fun m hm => hmem _ hm) fun _ => id
      refine foreseen_step hold rfl (underway_serve hq ?_ ?_ rfl rfl rfl)
      · exact fun ha => ⟨ha.1,ha.2.1⟩
      · rintro rfl
        exact List.mem_append_right _ (List.mem_singleton.mpr rfl)

theorem inv_receive {s : State} (h : Inv s) (i : ℕ) : Inv (receive s i) := by
  rcases receive_cases s i with heq | ⟨w,hw,⟨hr,heq⟩ | ⟨-,heq⟩⟩
  · rwa [heq]
  · rw [heq]
    refine ⟨ledger_of_same h.ledger le_rfl rfl rfl,?_,matched_of_same h.matched rfl fun _ => id⟩
    intro k hk hst
    exact foreseen_post (h.callSafe k hk hst) (List.mem_of_getElem? hw) hr rfl rfl rfl
      fun w' hw' => List.mem_of_mem_eraseIdx hw'
  · rw [heq]
    exact inv_of_net h rfl rfl rfl rfl rfl rfl rfl fun w' hw' _ => List.mem_of_mem_eraseIdx hw'

theorem inv_waitResponse {s : State} (h : Inv s) (p : Pend) : Inv (waitResponse s p) := by
  rcases waitResponse_cases s p with heq | ⟨k,k',ms,hk,hp,hturn⟩
  · rwa [heq]
  obtain ⟨hreq,hlen,htaken⟩ := pendMailbox_spec hp
  rcases hturn with ⟨hlt,heq⟩ | ⟨hle,heq⟩
  · rw [heq]
    refine ⟨ledger_of_same h.ledger le_rfl rfl rfl,?_,matched_of_same h.matched rfl fun _ => id⟩
    intro k1 hk1 hst
    obtain rfl := Option.some.inj hk1
    obtain ⟨hst0,hmbx⟩ := htaken hst
    have hold := h.callSafe k hk hst0
    rw [← hreq,← hlen] at hold
    refine foreseen_step hold ?_ (underway_of_net rfl rfl fun _ hw _ => hw)
    rw [hmbx,firstKept_cons_lt hlt]
  · rw [heq]
    refine ⟨ledger_of_same h.ledger le_rfl rfl rfl,fun k1 hk1 => by simp [returnCmd] at hk1,?_⟩
    refine matched_append h.matched rfl rfl ?_
    intro hok
    obtain ⟨hst,hacc,hres⟩ := result_sok hok hle
    obtain ⟨hst0,hmbx⟩ := htaken hst
    have hold := h.callSafe k hk hst0
    rw [← hreq,← hlen,foreseen_some (hmbx ▸ firstKept_cons_not_lt hle)] at hold
    have hmem : (k'.req,k'.msg) ∈ s.served := hold hacc
    exact ⟨k'.msg,hres,hmem,h.ledger.answers _ hmem⟩

/-- A step keeps the invariant when the command it starts, if any, is sent
safely. -/
theorem inv_step (s : State) (e : Event) (h : Inv s) (hsafe : SafeSend s e) :
    Inv (step s e) := by
  cases e with
  | instanceInit c => exact inv_of_net h rfl rfl rfl rfl rfl rfl rfl fun _ hw _ => hw
  | sendCmd c t len st stack => exact inv_sendCmd h c t len st stack hsafe
  | pend p => exact inv_waitResponse h p
  | serve a => exact inv_serve h a
  | other w =>
    rw [step]
    split_ifs with hr
    · exact h
    · refine inv_of_net h rfl rfl rfl rfl rfl rfl rfl fun w' hw' hr' => ?_
      rcases List.mem_append.mp hw' with hold | hnew
      · exact hold
      · exact absurd (List.mem_singleton.mp hnew ▸ hr') hr
  | receive i => exact inv_receive h i
  | lose i =>
    exact inv_of_net h rfl rfl rfl rfl rfl rfl rfl fun w' hw' _ => List.mem_of_mem_eraseIdx hw'

/-- Every success of a run is matched when its commands are sent safely. -/
theorem matched_of_safe {master : Source} {es : List Event}
    (h : Guarded step SafeSend (start master) es) : Along step Matched (start master) es :=
  along_mono (fun _ => Inv.matched) (along_of_guarded inv_step (inv_start master) h)

/-! ## Commands sent outside the condition -/

/-- Whether the event starts a command. -/
def sends : Event → Bool
  | .sendCmd _ _ _ _ _ => true
  | _ => false

/-- From this state the run can go on, without another command, to a
success that is not matched. -/
def CanMismatch (s : State) : Prop :=
  ∃ fs, (∀ f ∈ fs, sends f = false) ∧ ¬ Matched (run step s fs)

theorem canMismatch_step {s : State} {e : Event} (he : sends e = false)
    (h : CanMismatch (step s e)) : CanMismatch s := by
  obtain ⟨fs,hfs,hbad⟩ := h
  exact ⟨e :: fs,List.forall_mem_cons.mpr ⟨he,hfs⟩,hbad⟩

theorem waitResponse_cons {s : State} {k : Call} {m : Msg} {ms : List Msg}
    (hk : s.call = some k) (hmbx : s.mbx = m :: ms) :
    waitResponse s .success =
      if m.hdr.resId < k.req.hdr.reqId then
        { s with call := some { k with msg := m }, mbx := ms }
      else returnCmd { s with mbx := ms } { k with msg := m } := by
  simp [waitResponse,hk,hmbx,pendMailbox]

/-- A waiting command takes the first message of the mailbox it does not
drop, whoever it was for. -/
theorem canMismatch_of_kept {s : State} {k : Call} {m : Msg} (hk : s.call = some k)
    (hst : k.status = sok) (hm : firstKept s.mbx k.req.hdr.reqId = some m)
    (hacc : Accepts k.req.hdr.reqId k.resLen m) (hserved : (k.req,m) ∉ s.served) :
    CanMismatch s := by
  generalize hmbx : s.mbx = mbx at hm
  induction mbx generalizing s k with
  | nil => simp [firstKept] at hm
  | cons m0 ms ih =>
    refine canMismatch_step (e := .pend .success) rfl ?_
    have hwait := waitResponse_cons hk hmbx
    rw [step,hwait]
    by_cases hlt : m0.hdr.resId < k.req.hdr.reqId
    · rw [if_pos hlt]
      rw [firstKept_cons_lt hlt] at hm
      exact ih rfl hst hacc hserved rfl hm
    · rw [if_neg hlt]
      rw [firstKept_cons_not_lt hlt] at hm
      obtain rfl := Option.some.inj hm
      refine ⟨[],by simp,fun hgood => ?_⟩
      have hres : result { k with msg := m0 } = (sok,some m0) := result_of_accepts hst hacc
      obtain ⟨m1,hm1,hmem,-⟩ := hgood ⟨k.req,sok,some m0⟩ (by simp [returnCmd,hres]) rfl
      obtain rfl := Option.some.inj hm1
      exact hserved hmem

/-- A waiting command empties a mailbox whose messages it drops. -/
theorem canMismatch_of_drained {s : State} {k : Call} (hk : s.call = some k)
    (hm : firstKept s.mbx k.req.hdr.reqId = none)
    (h : ∀ m, CanMismatch { s with call := some { k with msg := m }, mbx := [] }) :
    CanMismatch s := by
  generalize hmbx : s.mbx = mbx at hm
  induction mbx generalizing s k with
  | nil =>
    obtain ⟨clients,master,call,toServer,net,mbx,sent,served,returned⟩ := s
    obtain rfl : mbx = [] := hmbx
    obtain rfl : call = some k := hk
    exact h k.msg
  | cons m0 ms ih =>
    have hlt : m0.hdr.resId < k.req.hdr.reqId := by
      by_contra hlt
      rw [firstKept_cons_not_lt hlt] at hm
      cases hm
    refine canMismatch_step (e := .pend .success) rfl ?_
    rw [step,waitResponse_cons hk hmbx,if_pos hlt]
    rw [firstKept_cons_lt hlt] at hm
    exact ih rfl h rfl hm

/-- A response in flight can be received and taken. -/
theorem canMismatch_of_net {s : State} {k : Call} {w : Wire} (hk : s.call = some k)
    (hst : k.status = sok) (hmbx : s.mbx = []) (hw : w ∈ s.net) (hr : isResponse s w = true)
    (hacc : Accepts k.req.hdr.reqId k.resLen w.msg) (hserved : (k.req,w.msg) ∉ s.served) :
    CanMismatch s := by
  obtain ⟨i,hi⟩ := List.mem_iff_getElem?.mp hw
  refine canMismatch_step (e := .receive i) rfl ?_
  have hreceive : receive s i = { s with net := s.net.eraseIdx i, mbx := [w.msg] } := by
    simp only [receive,hi,hmbx,cmdHandlerTask_eq]
    rw [if_pos (by decide),if_pos (by simpa [isResponse] using hr)]
    simp [cmdHandler]
  rw [step,hreceive]
  refine canMismatch_of_kept hk hst ?_ hacc hserved
  exact firstKept_cons_not_lt (by rw [hacc.1]; exact BitVec.lt_irrefl _)

/-- A request at the server can be answered before the command's own. -/
theorem canMismatch_of_queue {s : State} {k : Call} {q : Request} {as bs : List Request}
    (hk : s.call = some k) (hst : k.status = sok) (hmbx : s.mbx = [])
    (hq : s.toServer = as ++ q :: bs) (hid : q.hdr.reqId = k.req.hdr.reqId)
    (hlen : resLen q.hdr.reqType = k.resLen) (hown : ∀ q' ∈ as ++ [q], q' ≠ k.req)
    (hserved : ∀ p ∈ s.served, p.1 ≠ k.req) : CanMismatch s := by
  induction as generalizing s with
  | nil =>
    let a : Answer := ⟨tokenNone,sok,[]⟩
    refine canMismatch_step (e := .serve a) rfl ?_
    have hserve : serve s a =
        { s with
          toServer := bs
          net := s.net ++ [⟨s.master,response q.hdr a⟩]
          served := s.served ++ [(q,response q.hdr a)] } := by
      simp [serve,hq]
    rw [step,hserve]
    refine canMismatch_of_net hk hst hmbx (w := ⟨s.master,response q.hdr a⟩) (by simp) ?_
      ⟨hid,hlen,rfl⟩ ?_
    · simp [isResponse,response]
    · intro hmem
      rcases List.mem_append.mp hmem with hold | hnew
      · exact hserved _ hold rfl
      · exact hown q (by simp) (congrArg Prod.fst (List.mem_singleton.mp hnew)).symm
  | cons q' as ih =>
    let a : Answer := ⟨tokenNone,sok,[]⟩
    refine canMismatch_step (e := .serve a) rfl ?_
    have hserve : serve s a =
        { s with
          toServer := as ++ q :: bs
          net := s.net ++ [⟨s.master,response q'.hdr a⟩]
          served := s.served ++ [(q',response q'.hdr a)] } := by
      simp [serve,hq]
    rw [step,hserve]
    refine ih hk hmbx rfl (fun r hr => hown r (List.mem_cons_of_mem q' hr)) ?_
    intro p hp
    rcases List.mem_append.mp hp with hold | hnew
    · exact hserved p hold
    · rw [List.mem_singleton.mp hnew]
      exact hown q' List.mem_cons_self

/-- A command sent outside the condition can succeed unmatched. -/
theorem canMismatch_of_unsafe {s : State} {e : Event} (hl : Ledger s) (h : ¬ SafeSend s e) :
    CanMismatch (step s e) := by
  cases e with
  | sendCmd c t len st stack =>
    simp only [SafeSend,Classical.not_imp] at h
    obtain ⟨hc,rfl,hforeseen⟩ := h
    rcases sendCmd_cases s c t len sok stack with ⟨hc',-⟩ | ⟨-,hst,-⟩ | ⟨-,-,heq⟩
    · exact absurd hc hc'
    · exact absurd rfl hst
    rw [step,heq]
    have hserved : ∀ p ∈ s.served, p.1 ≠ request s c t := by
      intro p hp hreq
      have hlt := hl.served_sent p hp
      rw [hreq] at hlt
      exact lt_irrefl _ hlt
    cases hm : firstKept s.mbx (s.clients c).reqId with
    | some m =>
      rw [foreseen_some hm,Classical.not_imp] at hforeseen
      exact canMismatch_of_kept rfl rfl hm hforeseen.1 fun hmem => hserved _ hmem rfl
    | none =>
      rw [foreseen_none hm,Underway,not_and_or] at hforeseen
      refine canMismatch_of_drained rfl hm fun m => ?_
      rcases hforeseen with hnet | hqueue
      · push Not at hnet
        obtain ⟨w,hw,hr,hacc,-⟩ := hnet
        exact canMismatch_of_net rfl rfl rfl hw hr hacc fun hmem => hserved _ hmem rfl
      · push Not at hqueue
        obtain ⟨q,hq,hid,hlen,-⟩ := hqueue
        obtain ⟨as,bs,hsplit⟩ := List.append_of_mem hq
        have hall : s.toServer ++ [request s c t] = as ++ q :: (bs ++ [request s c t]) := by
          rw [hsplit,List.append_assoc,List.cons_append]
        refine canMismatch_of_queue rfl rfl rfl hall hid hlen ?_ hserved
        intro q' hq' hreq
        have hlt := hl.queued_sent q' (by rw [hsplit]; simp at hq' ⊢; tauto)
        rw [hreq] at hlt
        exact lt_irrefl _ hlt
  | _ => exact absurd trivial h

theorem safeSend_of_not_sends {s : State} {e : Event} (h : sends e = false) : SafeSend s e := by
  cases e with
  | sendCmd => cases h
  | _ => trivial

/-- The commands of a run are all sent safely exactly when, from any point
of it on and with no further command, every success is matched. -/
theorem responses_matched_iff (master : Source) (es : List Event) :
    Guarded step SafeSend (start master) es ↔
      ∀ bs fs, bs <+: es → (∀ f ∈ fs, sends f = false) →
        Along step Matched (start master) (bs ++ fs) := by
  constructor
  · intro h bs fs hbs hfs
    obtain ⟨cs,rfl⟩ := hbs
    refine matched_of_safe (guarded_append.mpr ⟨(guarded_append.mp h).1,?_⟩)
    exact guarded_of_all fun s f hf => safeSend_of_not_sends (hfs f hf)
  · intro h
    induction es using List.reverseRecOn with
    | nil => trivial
    | append_singleton as e ih =>
      have has : Guarded step SafeSend (start master) as :=
        ih fun bs fs hbs => h bs fs (hbs.trans (List.prefix_append as [e]))
      refine guarded_concat.mpr ⟨has,?_⟩
      by_contra hunsafe
      have hinv := along_final (along_of_guarded inv_step (inv_start master) has)
      obtain ⟨fs,hfs,hbad⟩ := canMismatch_of_unsafe hinv.ledger hunsafe
      have hgood := along_final (h (as ++ [e]) fs List.prefix_rfl hfs)
      rw [run_append,run_append] at hgood
      exact hbad hgood

/-- A late response is posted while another client waits for the same id. -/
def lateResponse : List Event :=
  let stack : Msg := ⟨0#16,⟨⟨0#32,0#32,.request⟩,.dump,1#32,sok⟩,[]⟩
  [.sendCmd 0 .attach (resLen .attach) sok stack,
    .serve ⟨100#32,sok,[]⟩,.receive 0,.pend .success,
    .sendCmd 1 .attach (resLen .attach) sok stack,
    .serve ⟨101#32,sok,[]⟩,.receive 0,.pend .success,
    .sendCmd 0 .joinVlan (resLen .joinVlan) sok stack,.pend .timeout,
    .sendCmd 1 .addFilterMac (resLen .addFilterMac) sok stack,
    .serve ⟨100#32,sok,[]⟩,.receive 0,.pend .success]

/-- The response to a command that timed out is returned as the success of
another client's command: other token, other type, same id. -/
theorem late_response_mismatched : ¬ Along step Matched (start ⟨0#32,0#32⟩) lateResponse := by
  intro h
  have hlast := along_final h
  revert hlast
  simp only [Matched,ReturnMatched]
  decide +kernel

end EthernetFirmware.ProxyClientMatching
