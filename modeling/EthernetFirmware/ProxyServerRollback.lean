import EthernetFirmware.GuardedRuns
import EthernetFirmware.ProxyServerRequests

/-!
# Traces of failed attaches

An attach takes its client slot and its core reference before the steps
that can fail, and nothing gives them back when a later step fails. The
module states which attaches are traceless: those refused for want of a
slot, which change nothing, and those whose every step succeeds, which do
not fail. Every other attach fails and keeps its slot.
-/

namespace EthernetFirmware.ProxyServerRollback

open RemoteConfig ProxyServerClients ProxyServerRequests GuardedRuns

variable {procs : ℕ}

/-- The client table, the reference counts, the flow offset table and the
allocated resources are the same. -/
structure SameResources (w w' : World procs) : Prop where
  /-- Client table. -/
  clients : ∀ core, w'.client core = w.client core
  /-- Reference counts. -/
  refCnt : ∀ core, w'.refCnt core = w.refCnt core
  /-- Configuration with its receive-flow offsets. -/
  virtPortCfg : w'.server.virtPortCfg = w.server.virtPortCfg
  /-- Allocated receive flows. -/
  rxFlows : w'.platform.rxFlows = w.platform.rxFlows
  /-- Allocated transmit channels. -/
  txChs : w'.platform.txChs = w.platform.txChs
  /-- Allocated MAC addresses. -/
  macs : w'.platform.macs = w.platform.macs

theorem SameResources.refl (w : World procs) : SameResources w w :=
  ⟨fun _ => rfl,fun _ => rfl,rfl,rfl,rfl,rfl⟩

theorem SameResources.hasFreeSlot {w w' : World procs} (h : SameResources w w')
    (core : Fin procs) : w'.hasFreeSlot core ↔ w.hasFreeSlot core := by
  unfold World.hasFreeSlot
  rw [h.clients core]

/-- A failed event leaves the resources alone. -/
def Traceless (w : World procs) (e : Event procs) : Prop :=
  (answer w e).status ≠ sok → SameResources w (handle w e)

/-- An attach that is refused for want of a slot or has every step
succeed. -/
def RefusedOrComplete (w : World procs) (e : Event procs) : Prop :=
  ∀ v ext, e.request.cmd.attachPort = some (v,ext) →
    ¬ w.hasFreeSlot e.request.remoteProcId ∨
      attachStepsOk w e.outcomes e.request.remoteProcId ext

/-- An attach request answered with an error. -/
def FailedAttach (w : World procs) (e : Event procs) : Prop :=
  e.request.cmd.attachPort ≠ none ∧ (answer w e).status ≠ sok

section Attach

variable {w : World procs} {e : Event procs} {v : U32} {ext : Bool}

/-- The exact condition for one attach to be traceless. -/
theorem traceless_iff (hw : Ready w) (hc : e.request.cmd.attachPort = some (v,ext)) :
    Traceless w e ↔ ¬ w.hasFreeSlot e.request.remoteProcId ∨
      attachStepsOk w e.outcomes e.request.remoteProcId ext := by
  by_cases hf : w.hasFreeSlot e.request.remoteProcId
  · obtain ⟨i,h⟩ := attach_effect (x := e.outcomes) hw.1 hc hf
    constructor
    · intro ht
      right
      by_contra hno
      have hsame := ht (fun hok => hno (h.status.mp hok))
      have htaken : (w.client e.request.remoteProcId i).inUse = true := by
        rw [← hsame.clients]
        exact h.inUse
      rw [h.wasFree] at htaken
      contradiction
    · rintro (hno | hok) hst
      · exact absurd hf hno
      · exact absurd (h.status.mpr hok) hst
  · obtain ⟨hsame,-⟩ := attach_full (x := e.outcomes) hc hf
    constructor
    · intro _
      exact Or.inl hf
    · intro _ _
      unfold handle
      rw [hsame]
      exact SameResources.refl w

/-- A failed attach that meets the condition found no slot, so it changed
nothing at all. -/
theorem failed_unchanged (hw : Ready w) (hG : RefusedOrComplete w e)
    (hfail : FailedAttach w e) : handle w e = w := by
  obtain ⟨⟨v,ext⟩,hc⟩ := Option.ne_none_iff_exists'.mp hfail.1
  by_cases hf : w.hasFreeSlot e.request.remoteProcId
  · obtain ⟨i,h⟩ := attach_effect (x := e.outcomes) hw.1 hc hf
    rcases hG v ext hc with hno | hok
    · exact absurd hf hno
    · exact absurd (h.status.mpr hok) hfail.2
  · exact (attach_full (x := e.outcomes) hc hf).1

end Attach

/-- Any number of failed attaches that meet the condition leave the world
as it was. -/
theorem run_failed_unchanged {w : World procs} {events : List (Event procs)} (hw : Ready w)
    (h : Guarded handle (fun w e => RefusedOrComplete w e ∧ FailedAttach w e) w events) :
    run handle w events = w := by
  apply run_eq_of_unchanged
  refine guarded_of_invariant (I := Ready) ?_ ?_ hw h
  · exact fun w e hw _ => ready_handle hw
  · exact fun w e hw hG => failed_unchanged hw hG.1 hG.2

/-- World an initialised server reaches by a history of requests. -/
def reached (csum : Bool) (cfg : List VirtPortCfg) (history : List (Event procs)) :
    World procs :=
  run handle (initServer procs csum cfg) history

theorem ready_reached (csum : Bool) (cfg : List VirtPortCfg) (history : List (Event procs)) :
    Ready (reached csum cfg history) :=
  run_invariant (fun _ _ h => ready_handle h) (ready_initServer csum cfg) history

/-- In every reachable state a failed attach leaves no trace exactly when
it is refused for want of a slot or every one of its steps succeeds, and
failed attaches of this kind, however many, keep every free slot free. -/
theorem failed_attach_traceless_iff (procs : ℕ) (csum : Bool) (cfg : List VirtPortCfg)
    (history : List (Event procs)) :
    (∀ e v ext, e.request.cmd.attachPort = some (v,ext) →
      (Traceless (reached csum cfg history) e ↔
        ¬ (reached csum cfg history).hasFreeSlot e.request.remoteProcId ∨
          attachStepsOk (reached csum cfg history) e.outcomes e.request.remoteProcId ext)) ∧
    ∀ events, Guarded handle (fun w e => RefusedOrComplete w e ∧ FailedAttach w e)
        (reached csum cfg history) events →
      SameResources (reached csum cfg history) (run handle (reached csum cfg history) events) ∧
        ∀ core, (run handle (reached csum cfg history) events).hasFreeSlot core ↔
          (reached csum cfg history).hasFreeSlot core := by
  have hready := ready_reached csum cfg history
  constructor
  · intro e v ext hc
    exact traceless_iff hready hc
  · intro events hG
    rw [run_failed_unchanged hready hG]
    exact ⟨SameResources.refl _,fun _ => Iff.rfl⟩

/-- An ATTACH_EXT whose transmit channel cannot be allocated. -/
def noTxChannel : Event 1 :=
  ⟨{ plainOutcomes fun _ => 1518#32 with txChStatus := ealloc },
    ⟨⟨0,Nat.one_pos⟩,100#32,3#8,0#32,0#32,.attachExt 25#32⟩⟩

/-- An ATTACH whose calls succeed. -/
def plainAttach (virtPort : U32) : Event 1 :=
  ⟨plainOutcomes fun _ => 1518#32,⟨⟨0,Nat.one_pos⟩,100#32,3#8,0#32,0#32,.attach virtPort⟩⟩

/-- Two clients attach, which are all a core can have. -/
def twoClients : List (Event 1) := [plainAttach 25#32,plainAttach 26#32]

/-- Attaches to the full core. -/
def refusedAttaches : List (Event 1) := [noTxChannel,plainAttach 27#32,noTxChannel]

/-- The exact condition at a fresh server, where the failing extended attach is
not traceless, and a run of attaches that a full core refuses. -/
theorem failed_attach_traceless_iff_noTxChannel :
    ¬ Traceless (reached false [] []) noTxChannel ∧
      SameResources (reached false [] twoClients)
        (run handle (reached false [] twoClients) refusedAttaches) := by
  refine ⟨?_,((failed_attach_traceless_iff 1 false [] twoClients).2 refusedAttaches
    ⟨⟨?_,?_⟩,⟨?_,?_⟩,⟨?_,?_⟩,trivial⟩).1⟩
  · rw [(failed_attach_traceless_iff 1 false [] []).1 noTxChannel 25#32 true rfl]
    decide
  · exact fun _ _ _ => Or.inl (by decide)
  · exact ⟨by decide,by decide⟩
  · exact fun _ _ _ => Or.inl (by decide)
  · exact ⟨by decide,by decide⟩
  · exact fun _ _ _ => Or.inl (by decide)
  · exact ⟨by decide,by decide⟩

/-- The failing attach keeps its slot, its core reference and its receive
flow, and after two of them a further attach finds no slot. -/
theorem failed_attach_leaves_trace :
    ¬ Traceless (initServer 1 false []) noTxChannel ∧
      (handle (initServer 1 false []) noTxChannel).platform.rxFlows ≠ [] ∧
      (answer (run handle (initServer 1 false []) [noTxChannel,noTxChannel])
        ⟨plainOutcomes fun _ => 1518#32,⟨0,100#32,3#8,0#32,0#32,.attach 25#32⟩⟩).status
          = ealloc := by
  refine ⟨?_,by decide,by decide⟩
  intro h
  have hsame := (h (by decide)).refCnt 0
  revert hsame
  decide

end EthernetFirmware.ProxyServerRollback
