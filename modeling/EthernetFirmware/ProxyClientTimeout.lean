import EthernetFirmware.ProxyClientMatching

/-!
# Time-outs of proxy client commands

The wait loop of `CpswProxy_sendCmd` on its own: a command that has sent
its request takes what the mailbox gives, wait after wait, and goes on as
long as its local buffer holds a smaller id than the one it waits for. A
wait that gives nothing leaves the buffer alone, so the loop then judges
a message it has dropped before, or what the stack happened to hold.

A command respects its time-out when it ends, when no wait follows one
that has timed out, and when a response with its id that arrives in time
is what it ends with. The loop does so exactly when its own response
arrives after smaller ids only, or does not arrive in time and another
message or the content of the stack ends the wait.
-/

namespace EthernetFirmware.ProxyClientTimeout

open RemoteConfig GuardedRuns ProxyClientCommands ProxyClientMatching

/-- What one wait on the mailbox gives. -/
inductive Wait where
  /-- A message. -/
  | received (m : Msg)
  /-- Nothing in time. -/
  | timeout
  /-- An error. -/
  | failure
  deriving DecidableEq

/-- The command after one wait. -/
def afterWait (k : Call) : Wait → Call
  | .received m => { k with msg := m }
  | .timeout => { k with status := etimeout }
  | .failure => { k with status := efail }

/-- The loop goes on: the id in the buffer is smaller. -/
def WaitsAgain (k : Call) : Prop := k.msg.hdr.resId < k.req.hdr.reqId

instance (k : Call) : Decidable (WaitsAgain k) :=
  inferInstanceAs (Decidable (_ < _))

/-- The wait loop from wait number `i` on, with at most `fuel` waits:
number of waits and command at its end. -/
def waitLoop (w : ℕ → Wait) : ℕ → ℕ → Call → Option (ℕ × Call)
  | 0, _, _ => none
  | fuel + 1, i, k =>
    if WaitsAgain (afterWait k (w i)) then waitLoop w fuel (i + 1) (afterWait k (w i))
    else some (i + 1,afterWait k (w i))

/-- Call under way after `CpswProxy_sendCmd` has sent its request. -/
def sentCall (s : State) (c : Fin clientMax) (reqType : CmdType) (resLen : U16)
    (sendStatus : Status) (stack : Msg) : Call :=
  ⟨c,request s c reqType,resLen,sendStatus,stack⟩

/-- Waits of a mailbox that gives the listed results and then nothing. -/
def waits (ws : List Wait) (i : ℕ) : Wait := ws.getD i .timeout

/-- The wait of `CpswProxy_sendCmd`, left out when the request could not be
sent. -/
def waitEnd (fuel : ℕ) (k : Call) (ws : List Wait) : Option (ℕ × Call) :=
  if k.status = sok then waitLoop (waits ws) fuel 0 k else some (0,k)

/-- Wait `j` gives a message before any wait has timed out. -/
def InTime (w : ℕ → Wait) (j : ℕ) (m : Msg) : Prop :=
  w j = .received m ∧ ∀ i < j, w i ≠ .timeout

/-- A response with the expected id arrives before any wait times out. -/
def OwnInTime (k : Call) (w : ℕ → Wait) : Prop :=
  ∃ j m, InTime w j m ∧ m.hdr.resId = k.req.hdr.reqId

/-- The command ends. No wait follows one that timed out, and after such a
wait an error is returned. A response with the expected id that arrives in
time is never reported as an error of the wait: the command ends with it. -/
def RespectsTimeout (k : Call) (ws : List Wait) : Prop :=
  ∃ fuel n k', waitEnd fuel k ws = some (n,k') ∧
    (∀ i < n, waits ws i = .timeout → i + 1 = n ∧ (result k').1 ≠ sok) ∧
    (k.status = sok → OwnInTime k (waits ws) →
      k'.status = sok ∧ k'.msg.hdr.resId = k.req.hdr.reqId)

/-- The expected response comes after smaller ids only. -/
def OwnNext (k : Call) (w : ℕ → Wait) : Prop :=
  ∃ j m, w j = .received m ∧ m.hdr.resId = k.req.hdr.reqId ∧
    ∀ i < j, ∃ m', w i = .received m' ∧ m'.hdr.resId < k.req.hdr.reqId

/-- A greater id arrives before any wait times out. -/
def GreaterInTime (k : Call) (w : ℕ → Wait) : Prop :=
  ∃ j m, InTime w j m ∧ k.req.hdr.reqId < m.hdr.resId

/-- The first wait gives nothing and the buffer happens to hold no smaller
id. -/
def StackStops (k : Call) (w : ℕ → Wait) : Prop :=
  ¬ WaitsAgain k ∧ ∀ m, w 0 ≠ .received m

/-! ## The loop as a sequence of waits -/

section Loop

variable {w : ℕ → Wait} {k k' : Call} {n i j : ℕ} {m : Msg}

/-- The command after the first waits. -/
def after (w : ℕ → Wait) (k : Call) : ℕ → Call
  | 0 => k
  | n + 1 => afterWait (after w k n) (w n)

/-- The loop ends after `n` waits. -/
structure EndsAt (w : ℕ → Wait) (k : Call) (n : ℕ) : Prop where
  /-- There is a wait. -/
  pos : 0 < n
  /-- The last one ends the loop. -/
  stops : ¬ WaitsAgain (after w k n)
  /-- The others do not. -/
  again : ∀ j, 0 < j → j < n → WaitsAgain (after w k j)

@[simp] theorem after_zero : after w k 0 = k := rfl

@[simp] theorem after_succ : after w k (n + 1) = afterWait (after w k n) (w n) := rfl

@[simp] theorem afterWait_req (x : Wait) : (afterWait k x).req = k.req := by
  cases x <;> rfl

@[simp] theorem after_req : (after w k n).req = k.req := by
  induction n with
  | zero => rfl
  | succ n ih => rw [after_succ,afterWait_req,ih]

theorem waitsAgain_after :
    WaitsAgain (after w k n) ↔ (after w k n).msg.hdr.resId < k.req.hdr.reqId := by
  rw [WaitsAgain,after_req]

theorem msg_of_received (h : w n = .received m) : (after w k (n + 1)).msg = m := by
  rw [after_succ,h]
  rfl

/-- A wait that gives nothing leaves the buffer alone. -/
theorem msg_of_silent (h : ∀ m, w n ≠ .received m) :
    (after w k (n + 1)).msg = (after w k n).msg := by
  rw [after_succ]
  cases hw : w n with
  | received m => exact absurd hw (h m)
  | timeout => rfl
  | failure => rfl

theorem status_of_silent (h : ∀ m, w n ≠ .received m) : (after w k (n + 1)).status ≠ sok := by
  rw [after_succ]
  cases hw : w n with
  | received m => exact absurd hw (h m)
  | timeout => exact etimeout_ne_sok
  | failure => exact efail_ne_sok

/-- A wait without an error has given a message every time. -/
theorem status_after_iff (hk : k.status = sok) :
    (after w k n).status = sok ↔ ∀ i < n, ∃ m, w i = .received m := by
  induction n with
  | zero => simp [hk]
  | succ n ih =>
    cases hw : w n with
    | received m =>
      have hlast : (after w k (n + 1)).status = (after w k n).status := by
        rw [after_succ,hw]
        rfl
      rw [hlast,ih]
      constructor
      · intro h i hi
        rcases Nat.lt_succ_iff_lt_or_eq.mp hi with hlt | rfl
        · exact h i hlt
        · exact ⟨m,hw⟩
      · exact fun h i hi => h i (Nat.lt_succ_of_lt hi)
    | timeout =>
      refine iff_of_false (status_of_silent fun m => by simp [hw]) fun h => ?_
      obtain ⟨m,hm⟩ := h n (Nat.lt_succ_self n)
      simp [hw] at hm
    | failure =>
      refine iff_of_false (status_of_silent fun m => by simp [hw]) fun h => ?_
      obtain ⟨m,hm⟩ := h n (Nat.lt_succ_self n)
      simp [hw] at hm

/-- The loop from wait `i` on ends at the first wait whose buffer stops
it. -/
theorem waitLoop_eq_some {fuel : ℕ} :
    waitLoop w fuel i (after w k i) = some (n,k') ↔
      i < n ∧ n ≤ i + fuel ∧ k' = after w k n ∧ ¬ WaitsAgain (after w k n) ∧
        ∀ j, i < j → j < n → WaitsAgain (after w k j) := by
  induction fuel generalizing i with
  | zero =>
    refine iff_of_false (by simp [waitLoop]) ?_
    rintro ⟨hlt,hle,-⟩
    omega
  | succ fuel ih =>
    rw [waitLoop,← after_succ]
    by_cases h : WaitsAgain (after w k (i + 1))
    · rw [if_pos h,ih]
      constructor
      · rintro ⟨hlt,hle,heq,hstop,hagain⟩
        refine ⟨by omega,by omega,heq,hstop,fun j hij hjn => ?_⟩
        rcases Nat.lt_or_eq_of_le (Nat.succ_le_of_lt hij) with hj | rfl
        · exact hagain j hj hjn
        · exact h
      · rintro ⟨hlt,hle,heq,hstop,hagain⟩
        have hne : n ≠ i + 1 := by
          rintro rfl
          exact hstop h
        exact ⟨by omega,by omega,heq,hstop,fun j hij hjn => hagain j (by omega) hjn⟩
    · rw [if_neg h,Option.some.injEq,Prod.mk.injEq]
      constructor
      · rintro ⟨rfl,rfl⟩
        exact ⟨by omega,by omega,rfl,h,fun j hij hjn => by omega⟩
      · rintro ⟨hlt,hle,heq,hstop,hagain⟩
        have hn : n = i + 1 := by
          by_contra hne
          exact h (hagain (i + 1) (by omega) (by omega))
        exact ⟨hn.symm,by rw [heq,hn]⟩

/-- With enough fuel the loop gives its end. -/
theorem exists_waitLoop_iff :
    (∃ fuel, waitLoop w fuel 0 k = some (n,k')) ↔ EndsAt w k n ∧ k' = after w k n := by
  have hloop : ∀ fuel, waitLoop w fuel 0 k = some (n,k') ↔ _ :=
    fun fuel => waitLoop_eq_some (i := 0) (k := k)
  constructor
  · rintro ⟨fuel,h⟩
    obtain ⟨hlt,-,heq,hstop,hagain⟩ := (hloop fuel).mp h
    exact ⟨⟨hlt,hstop,hagain⟩,heq⟩
  · rintro ⟨h,heq⟩
    exact ⟨n,(hloop n).mpr ⟨h.pos,by omega,heq,h.stops,h.again⟩⟩

/-- A loop that some wait stops ends there or earlier. -/
theorem exists_endsAt (hpos : 0 < n) (hstop : ¬ WaitsAgain (after w k n)) :
    ∃ l ≤ n, EndsAt w k l := by
  have hex : ∃ l, 0 < l ∧ ¬ WaitsAgain (after w k l) := ⟨n,hpos,hstop⟩
  classical
  refine ⟨Nat.find hex,Nat.find_min' hex ⟨hpos,hstop⟩,(Nat.find_spec hex).1,
    (Nat.find_spec hex).2,fun j hj hlt => ?_⟩
  by_contra hnot
  exact Nat.find_min hex hlt ⟨hj,hnot⟩

/-- A loop ends with a wait that gives nothing only if it is the first one
and the stack stops it. -/
theorem stackStops_of_silent (h : EndsAt w k (i + 1)) (hs : ∀ m, w i ≠ .received m) :
    i = 0 ∧ StackStops k w := by
  have hstop := h.stops
  rw [waitsAgain_after,msg_of_silent hs,← waitsAgain_after] at hstop
  have hi : i = 0 := by
    by_contra hne
    exact hstop (h.again i (Nat.pos_of_ne_zero hne) (Nat.lt_succ_self i))
  subst hi
  exact ⟨rfl,hstop,hs⟩

/-- A message dropped by the loop has a smaller id. -/
theorem lt_of_dropped (h : EndsAt w k n) (hi : i + 1 < n) (hm : w i = .received m) :
    m.hdr.resId < k.req.hdr.reqId := by
  have hagain := h.again (i + 1) (Nat.succ_pos i) hi
  rwa [waitsAgain_after,msg_of_received hm] at hagain

/-- A message that is not dropped ends the loop. -/
theorem stops_of_received (hm : w j = .received m) (hge : ¬ m.hdr.resId < k.req.hdr.reqId) :
    ¬ WaitsAgain (after w k (j + 1)) := by
  rwa [waitsAgain_after,msg_of_received hm]

/-- The expected response after smaller ids ends the loop. -/
theorem endsAt_own (hm : w j = .received m) (hid : m.hdr.resId = k.req.hdr.reqId)
    (hbefore : ∀ i < j, ∃ m', w i = .received m' ∧ m'.hdr.resId < k.req.hdr.reqId) :
    EndsAt w k (j + 1) := by
  refine ⟨Nat.succ_pos j,stops_of_received hm (by rw [hid]; exact BitVec.lt_irrefl _),
    fun l hl hlt => ?_⟩
  obtain ⟨i,rfl⟩ := Nat.exists_eq_succ_of_ne_zero (Nat.ne_of_gt hl)
  obtain ⟨m',hm',hsmall⟩ := hbefore i (by omega)
  rwa [waitsAgain_after,msg_of_received hm']

end Loop

/-! ## The loop in the runs of a client core -/

section Runs

variable {s : State} {k : Call}

/-- What a wait on this mailbox gives; nothing while it goes on. -/
def waitOf (mbx : List Msg) : Pend → Option Wait
  | .success => mbx.head?.map .received
  | .timeout => some .timeout
  | .failure => some .failure

/-- The wait an event completes for the command that holds the mutex. -/
def waitOfEvent (s : State) : Event → Option Wait
  | .pend p => waitOf s.mbx p
  | _ => none

/-- Waits completed in a run until the command returns. -/
def waitsOf : State → List Event → List Wait
  | _, [] => []
  | s, e :: es =>
    match s.call with
    | none => []
    | some _ => (waitOfEvent s e).toList ++ waitsOf (step s e) es

/-- What the loop does with one wait. -/
theorem waitResponse_of_wait (hs : s.call = some k) (p : Pend) :
    (waitOf s.mbx p = none ∧ waitResponse s p = s) ∨
      ∃ w ms, waitOf s.mbx p = some w ∧
        waitResponse s p =
          if WaitsAgain (afterWait k w) then { s with call := some (afterWait k w), mbx := ms }
          else returnCmd { s with mbx := ms } (afterWait k w) := by
  unfold waitResponse
  rw [hs]
  cases p with
  | success =>
    cases hm : s.mbx with
    | nil => exact Or.inl ⟨rfl,by simp [pendMailbox]⟩
    | cons m ms => exact Or.inr ⟨.received m,ms,rfl,rfl⟩
  | timeout => exact Or.inr ⟨.timeout,s.mbx,rfl,rfl⟩
  | failure => exact Or.inr ⟨.failure,s.mbx,rfl,rfl⟩

/-- An event without a wait leaves the command that holds the mutex. -/
theorem call_of_no_wait (hs : s.call = some k) {e : Event} (h : waitOfEvent s e = none) :
    (step s e).call = some k := by
  cases e with
  | instanceInit c => exact hs
  | sendCmd c t len st stack =>
    simp only [step,sendCmd,hs]
  | pend p =>
    simp only [step]
    rcases waitResponse_of_wait hs p with ⟨-,heq⟩ | ⟨w,ms,hw,-⟩
    · rw [heq,hs]
    · exact absurd (h.symm.trans hw) (by simp)
  | serve a =>
    simp only [step,serve]
    split <;> exact hs
  | other w =>
    simp only [step]
    split <;> exact hs
  | receive i =>
    simp only [step]
    rcases receive_cases s i with heq | ⟨w,-,⟨-,heq⟩ | ⟨-,heq⟩⟩ <;> rw [heq] <;> exact hs
  | lose i => exact hs

/-- Finished commands stay recorded. -/
theorem returned_step {r : Return} (h : r ∈ s.returned) (e : Event) :
    r ∈ (step s e).returned := by
  cases e with
  | instanceInit c => exact h
  | sendCmd c t len st stack =>
    simp only [step]
    rcases sendCmd_cases s c t len st stack with ⟨-,heq⟩ | ⟨-,-,heq⟩ | ⟨-,-,heq⟩ <;> rw [heq]
    · exact h
    · exact List.mem_append_left _ h
    · exact h
  | pend p =>
    simp only [step]
    rcases waitResponse_cases s p with heq | ⟨k,k',ms,-,-,⟨-,heq⟩ | ⟨-,heq⟩⟩ <;> rw [heq]
    · exact h
    · exact h
    · exact List.mem_append_left _ h
  | serve a =>
    simp only [step,serve]
    split <;> exact h
  | other w =>
    simp only [step]
    split <;> exact h
  | receive i =>
    simp only [step]
    rcases receive_cases s i with heq | ⟨w,-,⟨-,heq⟩ | ⟨-,heq⟩⟩ <;> rw [heq] <;> exact h
  | lose i => exact h

theorem returned_run {r : Return} (h : r ∈ s.returned) (es : List Event) :
    r ∈ (run step s es).returned :=
  run_invariant (I := fun s : State => r ∈ s.returned) (fun _ e h => returned_step h e) h es

/-- A command that gets the mutex and sends its request starts the loop. -/
theorem call_sendCmd (hs : s.call = none) (c : Fin clientMax) (t : CmdType) (len : U16)
    (stack : Msg) :
    (step s (.sendCmd c t len sok stack)).call = some (sentCall s c t len sok stack) := by
  simp only [step,sendCmd,hs,if_pos]
  rfl

/-- The loop on a longer list of waits, after its first one. -/
theorem waitLoop_waits_cons (x : Wait) (ws : List Wait) (fuel i : ℕ) :
    waitLoop (waits (x :: ws)) fuel (i + 1) k =
      (waitLoop (waits ws) fuel i k).map fun r => (r.1 + 1,r.2) := by
  induction fuel generalizing i k with
  | zero => rfl
  | succ fuel ih =>
    have hwait : waits (x :: ws) (i + 1) = waits ws i := rfl
    rw [waitLoop,waitLoop,hwait]
    by_cases h : WaitsAgain (afterWait k (waits ws i))
    · rw [if_pos h,if_pos h,ih]
    · rw [if_neg h,if_neg h,Option.map_some]

/-- In every run of a client core a command that holds the mutex is where
the loop is after the waits completed since, or has returned what the loop
ends with. -/
theorem run_follows_loop (es : List Event) (hs : s.call = some k) :
    (waitLoop (waits (waitsOf s es)) (waitsOf s es).length 0 k = none ∧
        (run step s es).call = some ((waitsOf s es).foldl afterWait k)) ∨
      ∃ k', waitLoop (waits (waitsOf s es)) (waitsOf s es).length 0 k =
          some ((waitsOf s es).length,k') ∧
        ⟨k'.req,(result k').1,(result k').2⟩ ∈ (run step s es).returned := by
  induction es generalizing s k with
  | nil => exact Or.inl ⟨rfl,hs⟩
  | cons e es ih =>
    have hcons : waitsOf s (e :: es) = (waitOfEvent s e).toList ++ waitsOf (step s e) es := by
      rw [waitsOf,hs]
    rw [hcons,run_cons]
    cases hw : waitOfEvent s e with
    | none => exact ih (call_of_no_wait hs hw)
    | some w =>
      obtain ⟨p,rfl⟩ : ∃ p, e = .pend p := by
        cases e with
        | pend p => exact ⟨p,rfl⟩
        | _ => exact absurd hw (by simp [waitOfEvent])
      rcases waitResponse_of_wait hs p with ⟨hnone,-⟩ | ⟨w',ms,hw',heq⟩
      · exact absurd (hw.symm.trans hnone) (by simp)
      obtain rfl : w = w' := Option.some.inj (hw.symm.trans hw')
      have hstep : step s (.pend p) = waitResponse s p := rfl
      have hfirst : waits (w :: waitsOf (step s (.pend p)) es) 0 = w := rfl
      rw [Option.toList_some,List.singleton_append,List.length_cons,waitLoop,hfirst]
      by_cases hagain : WaitsAgain (afterWait k w)
      · rw [if_pos hagain] at heq
        have hcall : (step s (.pend p)).call = some (afterWait k w) := by rw [hstep,heq]
        rw [if_pos hagain,waitLoop_waits_cons,List.foldl_cons]
        rcases ih hcall with ⟨hnone,hrun⟩ | ⟨k',hsome,hret⟩
        · exact Or.inl ⟨by rw [hnone,Option.map_none],hrun⟩
        · exact Or.inr ⟨k',by rw [hsome,Option.map_some],hret⟩
      · rw [if_neg hagain] at heq
        have hcall : (step s (.pend p)).call = none := by
          rw [hstep,heq]
          rfl
        have hrest : waitsOf (step s (.pend p)) es = [] := by
          cases es with
          | nil => rfl
          | cons e es => rw [waitsOf,hcall]
        refine Or.inr ⟨afterWait k w,by rw [if_neg hagain,hrest,List.length_nil],?_⟩
        refine returned_run ?_ es
        rw [hstep,heq]
        exact List.mem_append_right _ (List.mem_singleton_self _)

end Runs

/-! ## When the time-out is respected -/

section Respected

variable {ws : List Wait} {k : Call}

theorem result_of_failed (h : k.status ≠ sok) : (result k).1 = k.status := by
  rw [result,if_neg h]

theorem silent_of_timeout {w : ℕ → Wait} {i : ℕ} (h : w i = .timeout) (m : Msg) :
    w i ≠ .received m := by
  rw [h]
  exact Wait.noConfusion

/-- A request that could not be sent is an error without a wait. -/
theorem respects_of_unsent (h : k.status ≠ sok) : RespectsTimeout k ws := by
  refine ⟨0,0,k,by rw [waitEnd,if_neg h],fun i hi => ?_,fun hok => absurd hok h⟩
  exact absurd hi (Nat.not_lt_zero i)

/-- For a request that was sent the wait is the loop. -/
theorem respects_iff_ends (h : k.status = sok) :
    RespectsTimeout k ws ↔
      ∃ n, EndsAt (waits ws) k n ∧
        (∀ i < n, waits ws i = .timeout →
          i + 1 = n ∧ (result (after (waits ws) k n)).1 ≠ sok) ∧
        (OwnInTime k (waits ws) → (after (waits ws) k n).status = sok ∧
          (after (waits ws) k n).msg.hdr.resId = k.req.hdr.reqId) := by
  constructor
  · rintro ⟨fuel,n,k',hend,hone,hown⟩
    rw [waitEnd,if_pos h] at hend
    obtain ⟨hends,rfl⟩ := exists_waitLoop_iff.mp ⟨fuel,hend⟩
    exact ⟨n,hends,hone,hown h⟩
  · rintro ⟨n,hends,hone,hown⟩
    obtain ⟨fuel,hend⟩ := exists_waitLoop_iff.mpr ⟨hends,rfl⟩
    exact ⟨fuel,n,_,by rw [waitEnd,if_pos h,hend],hone,fun _ => hown⟩

/-- An end with the expected response comes after smaller ids. -/
theorem ownNext_of_ends {w : ℕ → Wait} {n : ℕ} (hends : EndsAt w k n) (hk : k.status = sok)
    (hst : (after w k n).status = sok) (hid : (after w k n).msg.hdr.resId = k.req.hdr.reqId) :
    OwnNext k w := by
  have hall := (status_after_iff hk).mp hst
  obtain ⟨j,rfl⟩ := Nat.exists_eq_succ_of_ne_zero (Nat.ne_of_gt hends.pos)
  obtain ⟨m,hm⟩ := hall j (Nat.lt_succ_self j)
  refine ⟨j,m,hm,by rwa [Nat.succ_eq_add_one,msg_of_received hm] at hid,fun i hi => ?_⟩
  obtain ⟨m',hm'⟩ := hall i (Nat.lt_succ_of_lt hi)
  exact ⟨m',hm',lt_of_dropped hends (Nat.succ_lt_succ hi) hm'⟩

/-- An end after one time-out at most, without the expected response, is
that of a greater id or of the stack. -/
theorem greater_or_stack_of_ends {w : ℕ → Wait} {n : ℕ} (hends : EndsAt w k n)
    (hone : ∀ i < n, w i = .timeout → i + 1 = n) (hown : ¬ OwnInTime k w) :
    GreaterInTime k w ∨ StackStops k w := by
  obtain ⟨j,rfl⟩ := Nat.exists_eq_succ_of_ne_zero (Nat.ne_of_gt hends.pos)
  by_cases hgiven : ∃ m, w j = .received m
  · obtain ⟨m,hm⟩ := hgiven
    have htime : InTime w j m := by
      refine ⟨hm,fun i hi htimeout => ?_⟩
      have hlast := hone i (Nat.lt_succ_of_lt hi) htimeout
      omega
    have hstop := hends.stops
    rw [waitsAgain_after,Nat.succ_eq_add_one,msg_of_received hm] at hstop
    refine Or.inl ⟨j,m,htime,?_⟩
    by_contra hle
    exact hown ⟨j,m,htime,BitVec.le_antisymm (BitVec.not_lt.mp hle) (BitVec.not_lt.mp hstop)⟩
  · exact Or.inr (stackStops_of_silent hends fun m hm => hgiven ⟨m,hm⟩).2

/-- A command whose request was sent and that respects its time-out. -/
theorem condition_of_respects (hk : k.status = sok) (h : RespectsTimeout k ws) :
    OwnNext k (waits ws) ∨
      ¬ OwnInTime k (waits ws) ∧ (GreaterInTime k (waits ws) ∨ StackStops k (waits ws)) := by
  obtain ⟨n,hends,hone,hown⟩ := (respects_iff_ends hk).mp h
  by_cases ho : OwnInTime k (waits ws)
  · obtain ⟨hst,hid⟩ := hown ho
    exact Or.inl (ownNext_of_ends hends hk hst hid)
  · exact Or.inr ⟨ho,greater_or_stack_of_ends hends (fun i hi ht => (hone i hi ht).1) ho⟩

/-- The expected response after smaller ids is what the command ends
with. -/
theorem respects_of_ownNext (hk : k.status = sok) (h : OwnNext k (waits ws)) :
    RespectsTimeout k ws := by
  obtain ⟨j,m,hm,hid,hbefore⟩ := h
  have hall : ∀ i < j + 1, ∃ m', waits ws i = .received m' := by
    intro i hi
    rcases Nat.lt_succ_iff_lt_or_eq.mp hi with hlt | rfl
    · obtain ⟨m',hm',-⟩ := hbefore i hlt
      exact ⟨m',hm'⟩
    · exact ⟨m,hm⟩
  refine (respects_iff_ends hk).mpr ⟨j + 1,endsAt_own hm hid hbefore,fun i hi ht => ?_,fun _ => ?_⟩
  · obtain ⟨m',hm'⟩ := hall i hi
    exact absurd hm' (silent_of_timeout ht m')
  · exact ⟨(status_after_iff hk).mpr hall,by rw [msg_of_received hm,hid]⟩

/-- A greater id in time ends the wait before it can time out. -/
theorem respects_of_greater (hk : k.status = sok) (ho : ¬ OwnInTime k (waits ws))
    (h : GreaterInTime k (waits ws)) : RespectsTimeout k ws := by
  obtain ⟨j,m,⟨hm,htime⟩,hgt⟩ := h
  have hstop := stops_of_received (k := k) hm (BitVec.not_lt.mpr (BitVec.le_of_lt hgt))
  obtain ⟨n,hn,hends⟩ := exists_endsAt (Nat.succ_pos j) hstop
  refine (respects_iff_ends hk).mpr ⟨n,hends,fun i hi ht => ?_,fun h' => absurd h' ho⟩
  rcases Nat.lt_succ_iff_lt_or_eq.mp (lt_of_lt_of_le hi hn) with hlt | rfl
  · exact absurd ht (htime i hlt)
  · exact absurd hm (silent_of_timeout ht m)

/-- A stack that stops the loop ends it after the first wait. -/
theorem respects_of_stackStops (hk : k.status = sok) (ho : ¬ OwnInTime k (waits ws))
    (h : StackStops k (waits ws)) : RespectsTimeout k ws := by
  obtain ⟨hstack,hsilent⟩ := h
  have hends : EndsAt (waits ws) k 1 := by
    refine ⟨Nat.one_pos,?_,fun j hj hlt => by omega⟩
    rwa [waitsAgain_after,msg_of_silent hsilent,after_zero]
  refine (respects_iff_ends hk).mpr ⟨1,hends,fun i hi ht => ⟨by omega,?_⟩,fun h' => absurd h' ho⟩
  have hst : (after (waits ws) k 1).status ≠ sok := status_of_silent hsilent
  rwa [result_of_failed hst]

end Respected

/-- A command respects its time-out exactly when its request could not be
sent, or its own response comes after smaller ids only, or that response
does not come in time and a greater id or the stack ends the wait. -/
theorem timeout_respected_iff (s : State) (c : Fin clientMax) (reqType : CmdType) (resLen : U16)
    (sendStatus : Status) (stack : Msg) (ws : List Wait) :
    RespectsTimeout (sentCall s c reqType resLen sendStatus stack) ws ↔
      sendStatus ≠ sok ∨
        OwnNext (sentCall s c reqType resLen sendStatus stack) (waits ws) ∨
        ¬ OwnInTime (sentCall s c reqType resLen sendStatus stack) (waits ws) ∧
          (GreaterInTime (sentCall s c reqType resLen sendStatus stack) (waits ws) ∨
            StackStops (sentCall s c reqType resLen sendStatus stack) (waits ws)) := by
  by_cases hst : sendStatus = sok
  · constructor
    · exact fun h => Or.inr (condition_of_respects hst h)
    · rintro (h | h | ⟨ho,h | h⟩)
      · exact absurd hst h
      · exact respects_of_ownNext hst h
      · exact respects_of_greater hst ho h
      · exact respects_of_stackStops hst ho h
  · exact iff_of_true (respects_of_unsent hst) (Or.inl hst)

/-- Header of a response with this id. -/
def plainMsg (resId : U32) : Msg :=
  ⟨resLen .portLinkStatus,⟨⟨tokenNone,clientIdRtos,.response⟩,.portLinkStatus,resId,sok⟩,[]⟩

/-- A core whose first client object has sent one request. -/
def askedOnce : State := countRequest (start ⟨0#32,26#32⟩) ⟨0,Nat.two_pos⟩

/-- The response to the first request is late, and the second request is
never answered: the command never returns. -/
theorem late_response_never_times_out :
    ¬ RespectsTimeout
      (sentCall askedOnce 0 .portLinkStatus (resLen .portLinkStatus) sok (plainMsg 0#32))
      [.received (plainMsg 0#32)] := by
  intro h
  have hwait : ∀ j m, waits [.received (plainMsg 0#32)] j = .received m → m = plainMsg 0#32 := by
    intro j m hm
    cases j with
    | zero => exact (Wait.received.inj hm).symm
    | succ j => exact absurd hm Wait.noConfusion
  rcases condition_of_respects rfl h with ⟨j,m,hm,hid,-⟩ | ⟨-,⟨j,m,⟨hm,-⟩,hgt⟩ | ⟨-,hs⟩⟩
  · rw [hwait j m hm] at hid
    exact absurd hid (by decide)
  · rw [hwait j m hm] at hgt
    exact absurd hgt (by decide)
  · exact hs _ rfl

end EthernetFirmware.ProxyClientTimeout
