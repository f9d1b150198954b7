import EthernetFirmware.RemoteTimers

/-!
# Failures of the notify task

The task that forwards time-stamp pushes has one status variable. Within a
round the loop does not look at it, so a failing look-up or send stops
nothing; but the round ends with the status of its last pending push, and
the next round does nothing at all unless that status is a success. The
first round that ends in a failure is thus the last one that sends.
-/

namespace EthernetFirmware.NotifyTask

open RemoteConfig GuardedRuns RemoteTimers

variable {d : Cpts} {s : NotifyService d} {r : Round d} {e : Event d}

/-- An event of the round can be sent: its time stamp is found, and its push
is mapped to a core that is to be notified. -/
def Sendable (s : NotifyService d) (r : Round d) : Prop := ∃ i c, Sends s r i c

/-- Every event of a round that can be sent is sent to its core, whatever
failed for other events, in this round or before. -/
def EventsSent (s : NotifyService d) : Event d → Prop
  | .notify r => ∀ i c, Sends s r i c → (i,c) ∈ (notifyRound s r).2
  | .register _ _ _ => True
  | .unregister _ _ _ => True

/-- Every pending push of a round that is mapped to a core to be notified is
sent there, even when its time stamp cannot be found. -/
def MappedSent (s : NotifyService d) : Event d → Prop
  | .notify r => ∀ i c, r.pending i = true → forwardTo s i = some c → (i,c) ∈ (notifyRound s r).2
  | .register _ _ _ => True
  | .unregister _ _ _ => True

/-- The time stamps of these pushes are found. -/
def StampsFound (s : NotifyService d) : Event d → Prop
  | .notify r => ∀ i, r.pending i = true → forwardTo s i ≠ none → r.lookup i = sok
  | .register _ _ _ => True
  | .unregister _ _ _ => True

/-- The last pending push of a round fails: its look-up does, or the message
that it has for a core cannot be sent. -/
def FailsLast (s : NotifyService d) (r : Round d) : Prop :=
  ∃ i, lastPending r = some i ∧
    (r.lookup i ≠ sok ∨ forwardTo s i ≠ none ∧ r.send i ≠ sok)

/-- An event brings nothing to be sent. -/
def Quiet (s : NotifyService d) : Event d → Prop
  | .notify r => ¬ Sendable s r
  | .register _ _ _ => True
  | .unregister _ _ _ => True

/-- After a round whose last pending push fails, no round has anything to
send. -/
def QuietAfterFailure (s : NotifyService d) (events : List (Event d)) : Prop :=
  ∀ as r bs, events = as ++ .notify r :: bs → FailsLast (run step s as) r →
    Guarded step Quiet (run step s (as ++ [.notify r])) bs

theorem failsLast_iff :
    FailsLast s r ↔ ∃ i, lastPending r = some i ∧ pushStatus s r i ≠ sok := by
  unfold FailsLast
  refine exists_congr fun i => and_congr_right fun _ => ?_
  rw [← not_iff_not,not_not,pushStatus_eq_sok_iff,not_or,not_not,not_and,not_not]

/-- A running task sends everything that can be sent. -/
theorem eventsSent_of_running (h : Running s) : EventsSent s e := by
  cases e with
  | notify r =>
    intro i c hsend
    unfold notifyRound
    rw [if_pos ⟨events_ne_zero hsend.1,h⟩,mem_foldl_notifyPush]
    exact Or.inr ⟨List.mem_finRange i,hsend⟩
  | register c n r => trivial
  | unregister c n r => trivial

/-- A task that has stopped sends nothing. -/
theorem notifyRound_stopped (h : ¬ Running s) : notifyRound s r = (s.rtnVal,[]) := by
  unfold notifyRound
  rw [if_neg fun hc => h hc.2]

theorem eventsSent_stopped_iff (h : ¬ Running s) : EventsSent s e ↔ Quiet s e := by
  cases e with
  | notify r =>
    change (∀ i c, Sends s r i c → (i,c) ∈ (notifyRound s r).2) ↔ ¬ Sendable s r
    rw [notifyRound_stopped h]
    simp [Sendable]
  | register c n r => exact Iff.rfl
  | unregister c n r => exact Iff.rfl

/-- Registrations do not touch the task. -/
theorem task_register (c : Fin d.procs) (n : U8) (x : SubSteps) :
    (step s (.register c n x)).rtnVal = s.rtnVal ∧ (step s (.register c n x)).hEnet = s.hEnet := by
  simp only [step]
  rcases register_cases s c n x with ⟨-,heq⟩ | ⟨-,-,heq⟩ | ⟨-,-,heq⟩ <;> rw [heq] <;>
    exact ⟨rfl,rfl⟩

theorem task_unregister (c : Fin d.procs) (n : U8) (x : SubSteps) :
    (step s (.unregister c n x)).rtnVal = s.rtnVal ∧
      (step s (.unregister c n x)).hEnet = s.hEnet := by
  simp only [step]
  rcases unregister_cases s c n x with ⟨-,heq⟩ | ⟨-,-,heq⟩ | ⟨-,-,heq⟩ <;> rw [heq] <;>
    exact ⟨rfl,rfl⟩

/-- A running task goes on after a round exactly when its last pending push
does not fail. -/
theorem running_notify_iff (h : Running s) : Running (step s (.notify r)) ↔ ¬ FailsLast s r := by
  have hstatus : Running (step s (.notify r)) ↔ (notifyRound s r).1 = sok :=
    and_iff_left h.2
  rw [hstatus,notifyRound_status h,failsLast_iff]
  simp

/-- Whether the task runs after an event. -/
theorem running_step_iff (h : Running s) :
    Running (step s e) ↔ ∀ r, e = .notify r → ¬ FailsLast s r := by
  cases e with
  | notify r =>
    rw [running_notify_iff h]
    constructor
    · rintro hr r' heq
      obtain rfl := Event.notify.inj heq
      exact hr
    · exact fun hr => hr r rfl
  | register c n x =>
    refine iff_of_true ?_ fun r heq => absurd heq (by simp)
    exact ⟨(task_register c n x).1.trans h.1,(task_register c n x).2.trans h.2⟩
  | unregister c n x =>
    refine iff_of_true ?_ fun r heq => absurd heq (by simp)
    exact ⟨(task_unregister c n x).1.trans h.1,(task_unregister c n x).2.trans h.2⟩

/-- A task that has stopped never runs again. -/
theorem stopped_step (h : ¬ Running s) : ¬ Running (step s e) := by
  cases e with
  | notify r =>
    intro hrun
    refine h ⟨?_,hrun.2⟩
    have hst := hrun.1
    change (notifyRound s r).1 = sok at hst
    rwa [notifyRound_stopped h] at hst
  | register c n x =>
    intro hrun
    exact h ⟨(task_register c n x).1.symm.trans hrun.1,(task_register c n x).2.symm.trans hrun.2⟩
  | unregister c n x =>
    intro hrun
    exact h ⟨(task_unregister c n x).1.symm.trans hrun.1,
      (task_unregister c n x).2.symm.trans hrun.2⟩

/-- Once the task has stopped, a run is right exactly when there is nothing
to send. -/
theorem sent_stopped_iff {events : List (Event d)} (h : ¬ Running s) :
    Guarded step EventsSent s events ↔ Guarded step Quiet s events := by
  apply guarded_iff_guarded (I := fun s => ¬ Running s)
  · exact fun s e h _ => stopped_step h
  · exact fun s e h => eventsSent_stopped_iff h
  · exact h

/-- The first event of a run either is no failing round, and the rest of
the run counts, or it is one, and the rest has to be quiet. -/
theorem quietAfterFailure_cons {events : List (Event d)} :
    QuietAfterFailure s (e :: events) ↔
      (∀ r, e = .notify r → FailsLast s r → Guarded step Quiet (step s e) events) ∧
      QuietAfterFailure (step s e) events := by
  constructor
  · intro h
    refine ⟨fun r he hfail => ?_,fun as r bs heq hfail => ?_⟩
    · subst he
      exact h [] r events rfl hfail
    · exact h (e :: as) r bs (congrArg (List.cons e) heq) hfail
  · rintro ⟨hfirst,hrest⟩ as r bs heq hfail
    cases as with
    | nil =>
      obtain ⟨rfl,rfl⟩ := List.cons.inj heq
      exact hfirst r rfl hfail
    | cons a as =>
      obtain ⟨rfl,rfl⟩ := List.cons.inj heq
      exact hrest as r bs rfl hfail

/-- A quiet run is quiet after every failure. -/
theorem quietAfterFailure_of_quiet {events : List (Event d)}
    (h : Guarded step Quiet s events) : QuietAfterFailure s events := by
  rintro as r bs rfl -
  rw [guarded_append,guarded_cons] at h
  rw [run_append]
  exact h.2.2

/-- From a running task, all events that can be sent are, exactly when there
is nothing to send after a failure at the end of a round. -/
theorem sent_running_iff (events : List (Event d)) (h : Running s) :
    Guarded step EventsSent s events ↔ QuietAfterFailure s events := by
  induction events generalizing s with
  | nil =>
    refine iff_of_true trivial fun as r bs heq => ?_
    exact absurd heq.symm (by simp)
  | cons e events ih =>
    rw [guarded_cons,and_iff_right (eventsSent_of_running h),quietAfterFailure_cons]
    by_cases hrun : Running (step s e)
    · rw [ih hrun,and_iff_right]
      exact fun r he hfail => absurd hfail ((running_step_iff h).mp hrun r he)
    · rw [sent_stopped_iff hrun]
      constructor
      · exact fun hq => ⟨fun _ _ _ => hq,quietAfterFailure_of_quiet hq⟩
      · intro hq
        obtain ⟨r,hr⟩ := not_forall.mp fun hall => hrun ((running_step_iff h).mpr hall)
        obtain ⟨he,hfail⟩ := Classical.not_imp.mp hr
        exact hq.1 r he (not_not.mp hfail)

/-- A message that is sent has its time stamp. -/
theorem sends_of_mem {i : Fin d.countMax} {c : Fin d.procs} (h : (i,c) ∈ (notifyRound s r).2) :
    Sends s r i c := by
  unfold notifyRound at h
  split at h
  · rw [mem_foldl_notifyPush] at h
    exact (h.resolve_left List.not_mem_nil).2
  · exact absurd h List.not_mem_nil

/-- Nothing is sent for a push without a time stamp. -/
theorem mappedSent_iff : MappedSent s e ↔ StampsFound s e ∧ EventsSent s e := by
  cases e with
  | notify r =>
    constructor
    · intro h
      refine ⟨fun i hp hf => ?_,fun i c hsend => h i c hsend.1 hsend.2.2⟩
      obtain ⟨c,hc⟩ := Option.ne_none_iff_exists'.mp hf
      exact (sends_of_mem (h i c hp hc)).2.1
    · rintro ⟨hfound,hsent⟩ i c hp hc
      exact hsent i c ⟨hp,hfound i hp (hc ▸ Option.some_ne_none c),hc⟩
  | register c n r => exact iff_of_true trivial ⟨trivial,trivial⟩
  | unregister c n r => exact iff_of_true trivial ⟨trivial,trivial⟩

/-- From any map, mask and status, all events that can be sent are, exactly
when the task runs at the start or the run is quiet, and the run is quiet
after every round whose last pending push fails. -/
theorem sent_iff (s : NotifyService d) (events : List (Event d)) :
    Guarded step EventsSent s events ↔
      (Running s ∨ Guarded step Quiet s events) ∧ QuietAfterFailure s events := by
  by_cases h : Running s
  · rw [sent_running_iff events h,and_iff_right (Or.inl h)]
  · rw [sent_stopped_iff h]
    constructor
    · exact fun hq => ⟨Or.inr hq,quietAfterFailure_of_quiet hq⟩
    · exact fun hq => hq.1.resolve_left h

/-- In every run of registrations and rounds of the notify task, from any
map, mask and status: the events that can be sent are sent to their cores
exactly when the task runs at the start or the run is quiet, and the run is
quiet after every round whose last pending push fails. All mapped events
are sent when in addition their time stamps are found. -/
theorem events_sent_iff (s : NotifyService d) (events : List (Event d)) :
    (Guarded step EventsSent s events ↔
      (Running s ∨ Guarded step Quiet s events) ∧ QuietAfterFailure s events) ∧
    (Guarded step MappedSent s events ↔
      Guarded step StampsFound s events ∧
        (Running s ∨ Guarded step Quiet s events) ∧ QuietAfterFailure s events) := by
  refine ⟨sent_iff s events,?_⟩
  rw [guarded_congr fun s e => mappedSent_iff,guarded_and,sent_iff]

theorem eightPushes_procs_pos : 0 < eightPushes.procs := by decide

/-- Core 0 has registered the pushes 1 and 2. -/
def twoRegistered : NotifyService eightPushes :=
  run step (initNotifyServiceEp eightPushes sok true)
    [.register ⟨0,eightPushes_procs_pos⟩ 1#8 ⟨sok,sok⟩,
      .register ⟨0,eightPushes_procs_pos⟩ 2#8 ⟨sok,sok⟩]

/-- The look-up of the first push fails once; the second push is never
forwarded. -/
theorem failed_lookup_silences_task :
    ¬ Guarded step EventsSent twoRegistered
      [.notify ⟨1#32,fun _ => efail,fun _ => sok⟩,.notify ⟨2#32,fun _ => sok,fun _ => sok⟩] := by
  rintro ⟨-,hsent,-⟩
  have hmem := hsent ⟨1,by decide⟩ ⟨0,by decide⟩ ⟨by decide,rfl,by decide⟩
  revert hmem
  decide

end EthernetFirmware.NotifyTask
