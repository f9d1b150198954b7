import EthernetFirmware.GuardedRuns
import EthernetFirmware.ProxyServerRequests

/-!
# Attach ledger of the server proxy

Runs of requests with a ledger beside the server: per core, the attaches
answered with success less the detaches answered with success. The
ledger is balanced when the reference count, the attached client slots
and the ledger agree and the core is attached to the multi-client manager
exactly while it has references.

An attach that fails after its slot was taken keeps both the slot and
the reference, so the balance holds along a run exactly when no attach
fails that way and every driver attach and detach is carried out.
-/

namespace EthernetFirmware.ProxyServerLedger

open Function SlotTables RemoteConfig ProxyServerClients ProxyServerRequests GuardedRuns

variable {procs : ℕ}

/-- The server with the ledger of its answers. -/
structure Ledger (procs : ℕ) where
  /-- Server and platform. -/
  world : World procs
  /-- Successful attaches less successful detaches of each core. -/
  balance : Fin procs → Int

/-- What one answered request adds to its core's ledger. -/
def entry (r : Request procs) (res : Response) : Int :=
  if res.status = sok then
    if r.cmd.attachPort.isSome then 1 else if r.cmd = .detach then -1 else 0
  else 0

/-- Serve a request and book its answer. -/
def serve (s : Ledger procs) (e : Event procs) : Ledger procs :=
  let h := clientRequestHandler s.world e.outcomes e.request
  { world := h.1
    balance := update s.balance e.request.remoteProcId
      (s.balance e.request.remoteProcId + entry e.request h.2) }

/-- Ledger of a server that has just been initialised. -/
def initLedger (procs : ℕ) (csum : Bool) (cfg : List VirtPortCfg) : Ledger procs :=
  ⟨initServer procs csum cfg,fun _ => 0⟩

/-- The books of one core agree. -/
structure CoreBalanced (s : Ledger procs) (core : Fin procs) : Prop where
  /-- The count is the number of in-use slots with a valid token. -/
  slots : s.world.refCnt core = s.world.attachedCnt core
  /-- The count is the number of clients attached and not detached. -/
  clients : s.world.refCnt core = s.balance core
  /-- The count is not negative. -/
  nonneg : 0 ≤ s.world.refCnt core
  /-- The core is attached exactly while it has references. -/
  mcm : s.world.platform.attached core = true ↔ 0 < s.world.refCnt core

/-- The books of every core agree. -/
def Balanced (s : Ledger procs) : Prop := ∀ core, CoreBalanced s core

/-- Calls to the multi-client manager made by a step. -/
def newCalls (s s' : Ledger procs) : List (McmCall procs) :=
  s'.world.platform.mcmCalls.drop s.world.platform.mcmCalls.length

/-- A core is attached only from zero references to one, and detached only
from one to zero. -/
def CallsOnEdges (s : Ledger procs) (e : Event procs) : Prop :=
  ∀ core,
    (McmCall.coreAttach core ∈ newCalls s (serve s e) →
      s.world.refCnt core = 0 ∧ (serve s e).world.refCnt core = 1) ∧
    (McmCall.coreDetach core ∈ newCalls s (serve s e) →
      s.world.refCnt core = 1 ∧ (serve s e).world.refCnt core = 0)

/-- An attach that finds a free slot has every step succeed, the driver
attach of a first reference included, and the driver detach of a last
reference succeeds. -/
def StepsSucceed (s : Ledger procs) (e : Event procs) : Prop :=
  (∀ v ext, e.request.cmd.attachPort = some (v,ext) →
    s.world.hasFreeSlot e.request.remoteProcId →
    attachStepsOk s.world e.outcomes e.request.remoteProcId ext ∧
      (s.world.refCnt e.request.remoteProcId = 0 → e.outcomes.coreAttachOk = true)) ∧
  (e.request.cmd = .detach →
    getClient s.world e.request.remoteProcId e.request.token ≠ none →
    s.world.refCnt e.request.remoteProcId = 1 → e.outcomes.coreDetachOk = true)

/-- What guarded runs keep: a ready server, agreeing books, and a valid
token in every slot in use. -/
structure LedgerInv (s : Ledger procs) : Prop where
  /-- The server is ready. -/
  ready : Ready s.world
  /-- The books agree. -/
  balanced : Balanced s
  /-- Slots in use carry valid tokens. -/
  tokens : ∀ core i, (s.world.client core i).inUse = true →
    (s.world.client core i).token ≠ tokenNone

theorem attached_eq_inUse {c : ClientObj} (h : c.inUse = true → c.token ≠ tokenNone) :
    c.attached = c.inUse := by
  unfold ClientObj.attached
  cases hu : c.inUse with
  | false => rfl
  | true => simpa using h hu

theorem ledgerInv_init (csum : Bool) (cfg : List VirtPortCfg) :
    LedgerInv (initLedger procs csum cfg) := by
  have hcnt : ∀ core, (initServer procs csum cfg).attachedCnt core = 0 := by
    intro core
    exact slotCount_eq_zero_iff.mpr fun i => rfl
  refine ⟨ready_initServer csum cfg,?_,?_⟩
  · intro core
    have h := hcnt core
    constructor <;> simp [initLedger,h]
    rfl
  · intro core i hu
    simp [initLedger,ClientObj.zero] at hu

section Step

variable {s : Ledger procs} {e : Event procs} {v : U32} {ext : Bool}

/-- Books of a core whose counts and attachment a step left alone. -/
theorem CoreBalanced.of_counts {s' : Ledger procs} {core : Fin procs}
    (h : CoreBalanced s core) (hc : s'.world.attachedCnt core = s.world.attachedCnt core)
    (hr : s'.world.refCnt core = s.world.refCnt core)
    (hb : s'.balance core = s.balance core)
    (ha : s'.world.platform.attached core = s.world.platform.attached core) :
    CoreBalanced s' core := by
  constructor
  · rw [hr,hc]
    exact h.slots
  · rw [hr,hb]
    exact h.clients
  · rw [hr]
    exact h.nonneg
  · rw [ha,hr]
    exact h.mcm

/-- Books of a core that a step did not touch. -/
theorem CoreBalanced.of_untouched {s' : Ledger procs} {core : Fin procs}
    (h : CoreBalanced s core) (hc : s'.world.client core = s.world.client core)
    (hr : s'.world.refCnt core = s.world.refCnt core)
    (hb : s'.balance core = s.balance core)
    (ha : s'.world.platform.attached core = s.world.platform.attached core) :
    CoreBalanced s' core := by
  refine h.of_counts ?_ hr hb ha
  unfold World.attachedCnt
  rw [hc]

/-- Other cores' books are untouched by an attach. -/
theorem attach_others {i : Slot} {res : Response} {ok : Prop}
    (h : AttachEffect s.world e.outcomes e.request v ok i (serve s e).world res)
    {core : Fin procs} (hne : core ≠ e.request.remoteProcId) (hb : CoreBalanced s core) :
    CoreBalanced (serve s e) core := by
  apply hb.of_untouched (h.others core hne)
  · rw [h.refCnt,if_neg hne]
  · simp [serve,hne]
  · rw [h.attached]
    split <;> simp [hne]

/-- Attached slots of the core after an attach that takes a slot. -/
theorem attach_attachedCnt {i : Slot} {res : Response} {ok : Prop}
    (h : AttachEffect s.world e.outcomes e.request v ok i (serve s e).world res) :
    (serve s e).world.attachedCnt e.request.remoteProcId =
      s.world.attachedCnt e.request.remoteProcId +
        if mtuOk s.world e.outcomes e.request.remoteProcId then 1 else 0 := by
  have hold : (s.world.client e.request.remoteProcId i).attached = false := by
    simp [ClientObj.attached,h.wasFree]
  unfold World.attachedCnt
  rw [h.table]
  by_cases hm : mtuOk s.world e.outcomes e.request.remoteProcId = true
  · have hnew : ((serve s e).world.client e.request.remoteProcId i).attached = true := by
      simp [ClientObj.attached,h.inUse,h.token,hm,virtPort2Token_ne_tokenNone]
    rw [slotCount_update_gain hold hnew,if_pos hm]
  · have hnew : ((serve s e).world.client e.request.remoteProcId i).attached = false := by
      simp [ClientObj.attached,h.token,hm]
    rw [slotCount_update_same (hnew.trans hold.symm),if_neg hm,Nat.add_zero]

/-- Ledger of the core after an attach that takes a slot. -/
theorem attach_balance {i : Slot} {ok : Prop} [Decidable ok]
    (hc : e.request.cmd.attachPort = some (v,ext))
    (h : AttachEffect s.world e.outcomes e.request v ok i (serve s e).world
      (clientRequestHandler s.world e.outcomes e.request).2) :
    (serve s e).balance e.request.remoteProcId =
      s.balance e.request.remoteProcId + if ok then 1 else 0 := by
  have hentry : entry e.request (clientRequestHandler s.world e.outcomes e.request).2 =
      if ok then 1 else 0 := by
    unfold entry
    simp only [h.status,hc,Option.isSome_some,if_true]
  simp [serve,hentry]

/-- The core is attached after an attach that takes a slot unless a first
reference failed to attach it. -/
theorem attach_platform_iff {i : Slot} {res : Response} {ok : Prop} (hs : LedgerInv s)
    (h : AttachEffect s.world e.outcomes e.request v ok i (serve s e).world res) :
    (serve s e).world.platform.attached e.request.remoteProcId = true ↔
      (s.world.refCnt e.request.remoteProcId = 0 → e.outcomes.coreAttachOk = true) := by
  obtain ⟨-,-,hnonneg,hmcm⟩ := hs.balanced e.request.remoteProcId
  rw [h.attached]
  by_cases hz : s.world.refCnt e.request.remoteProcId = 0
  · have hoff : s.world.platform.attached e.request.remoteProcId = false := by
      rw [← Bool.not_eq_true,hmcm,hz]
      omega
    by_cases ha : e.outcomes.coreAttachOk = true <;> simp [hz,ha,hoff]
  · have hon : s.world.platform.attached e.request.remoteProcId = true := by
      rw [hmcm]
      omega
    simp [hz,hon]

/-- After an attach that takes a slot the core's books agree exactly when
every step of the attach succeeded. -/
theorem attach_coreBalanced {i : Slot} (hs : LedgerInv s)
    (hc : e.request.cmd.attachPort = some (v,ext))
    (h : AttachEffect s.world e.outcomes e.request v
      (attachStepsOk s.world e.outcomes e.request.remoteProcId ext) i (serve s e).world
      (clientRequestHandler s.world e.outcomes e.request).2) :
    CoreBalanced (serve s e) e.request.remoteProcId ↔
      attachStepsOk s.world e.outcomes e.request.remoteProcId ext ∧
        (s.world.refCnt e.request.remoteProcId = 0 → e.outcomes.coreAttachOk = true) := by
  obtain ⟨hslots,hclients,hnonneg,-⟩ := hs.balanced e.request.remoteProcId
  have hcnt := attach_attachedCnt h
  have hbal := attach_balance hc h
  have hatt := attach_platform_iff hs h
  have href : (serve s e).world.refCnt e.request.remoteProcId =
      s.world.refCnt e.request.remoteProcId + 1 := by rw [h.refCnt,if_pos rfl]
  have hpos : 0 < s.world.refCnt e.request.remoteProcId + 1 := by omega
  constructor
  · intro hb
    refine ⟨?_,hatt.mp (hb.mcm.mpr (by rw [href]; exact hpos))⟩
    have hok := hb.clients
    rw [href,hbal] at hok
    by_contra hno
    rw [if_neg hno] at hok
    omega
  · rintro ⟨hok,ha⟩
    rw [if_pos hok] at hbal
    rw [if_pos hok.1] at hcnt
    constructor
    · rw [href,hcnt,hslots]
      push_cast
      rfl
    · rw [href,hbal,hclients]
    · omega
    · rw [hatt,href]
      exact ⟨fun _ => hpos,fun _ => ha⟩

/-- Other cores' books are untouched by a detach. -/
theorem detach_others {i : Slot}
    (h : DetachEffect s.world e.outcomes e.request.remoteProcId i (serve s e).world)
    {core : Fin procs} (hne : core ≠ e.request.remoteProcId) (hb : CoreBalanced s core) :
    CoreBalanced (serve s e) core := by
  apply hb.of_untouched (h.others core hne)
  · rw [h.refCnt,if_neg hne]
  · simp [serve,hne]
  · rw [h.attached]
    split <;> simp [hne]

/-- A detach that resolves frees an attached slot. -/
theorem detach_attachedCnt {i : Slot} (hs : LedgerInv s)
    (hg : getClient s.world e.request.remoteProcId e.request.token = some i)
    (h : DetachEffect s.world e.outcomes e.request.remoteProcId i (serve s e).world) :
    (serve s e).world.attachedCnt e.request.remoteProcId + 1 =
      s.world.attachedCnt e.request.remoteProcId := by
  have hold : (s.world.client e.request.remoteProcId i).attached = true :=
    (attached_eq_inUse (hs.tokens e.request.remoteProcId i)).trans (getClient_eq_some hg).1
  unfold World.attachedCnt
  rw [h.table]
  exact slotCount_update_loss hold rfl

/-- A detach that resolves is booked. -/
theorem detach_balance (hc : e.request.cmd = .detach)
    (hst : (clientRequestHandler s.world e.outcomes e.request).2.status = sok) :
    (serve s e).balance e.request.remoteProcId = s.balance e.request.remoteProcId - 1 := by
  have hentry : entry e.request (clientRequestHandler s.world e.outcomes e.request).2 = -1 := by
    simp [entry,hst,hc,Cmd.attachPort]
  simp [serve,hentry,Int.sub_eq_add_neg]

/-- The core stays attached after a detach unless a last reference detached
it. -/
theorem detach_platform_iff {i : Slot} (hs : LedgerInv s)
    (hpos : 0 < s.world.refCnt e.request.remoteProcId)
    (h : DetachEffect s.world e.outcomes e.request.remoteProcId i (serve s e).world) :
    (serve s e).world.platform.attached e.request.remoteProcId = true ↔
      ¬ (s.world.refCnt e.request.remoteProcId = 1 ∧ e.outcomes.coreDetachOk = true) := by
  have hon := (hs.balanced e.request.remoteProcId).mcm.mpr hpos
  rw [h.attached]
  by_cases hz : s.world.refCnt e.request.remoteProcId = 1 ∧ e.outcomes.coreDetachOk = true
  · simp [hz]
  · rw [if_neg hz]
    simp [hon,hz]

/-- After a detach that resolves, the core's books agree exactly when the
driver detach of a last reference succeeded. -/
theorem detach_coreBalanced {i : Slot} (hs : LedgerInv s) (hc : e.request.cmd = .detach)
    (hg : getClient s.world e.request.remoteProcId e.request.token = some i)
    (hst : (clientRequestHandler s.world e.outcomes e.request).2.status = sok)
    (h : DetachEffect s.world e.outcomes e.request.remoteProcId i (serve s e).world) :
    CoreBalanced (serve s e) e.request.remoteProcId ↔
      (s.world.refCnt e.request.remoteProcId = 1 → e.outcomes.coreDetachOk = true) := by
  obtain ⟨hslots,hclients,hnonneg,-⟩ := hs.balanced e.request.remoteProcId
  have hcnt := detach_attachedCnt hs hg h
  have hbal := detach_balance hc hst
  have href : (serve s e).world.refCnt e.request.remoteProcId =
      s.world.refCnt e.request.remoteProcId - 1 := by rw [h.refCnt,if_pos rfl]
  have hatt := detach_platform_iff hs (by omega) h
  constructor
  · intro hb h1
    by_contra hno
    have hpos := hb.mcm.mp (hatt.mpr fun hz => hno hz.2)
    rw [href,h1] at hpos
    omega
  · intro hd
    constructor
    · omega
    · omega
    · omega
    · rw [hatt,href]
      constructor
      · intro hne
        have h1 : s.world.refCnt e.request.remoteProcId ≠ 1 := fun h1 => hne ⟨h1,hd h1⟩
        omega
      · rintro hpos ⟨h1,-⟩
        omega

/-- A quiet request books nothing and keeps the books. -/
theorem quiet_coreBalanced (h : QuietEffect s.world (serve s e).world)
    (hb : entry e.request (clientRequestHandler s.world e.outcomes e.request).2 = 0)
    {core : Fin procs} (hc : CoreBalanced s core) : CoreBalanced (serve s e) core := by
  have hcnt : (serve s e).world.attachedCnt core = s.world.attachedCnt core := by
    unfold World.attachedCnt slotCount passing
    congr 1
    ext i
    rw [Finset.mem_filter,Finset.mem_filter,h.client core i]
    rfl
  have hbal : (serve s e).balance core = s.balance core := by
    by_cases hne : core = e.request.remoteProcId
    · subst hne
      simp [serve,hb]
    · simp [serve,hne]
  exact hc.of_counts hcnt (h.refCnt core) hbal (by rw [h.platform])

/-- A quiet request is answered with nothing to book. -/
theorem quiet_entry
    (ha : ∀ v ext, e.request.cmd.attachPort = some (v,ext) →
      ¬ s.world.hasFreeSlot e.request.remoteProcId ∧
        (clientRequestHandler s.world e.outcomes e.request).2.status = ealloc)
    (hd : e.request.cmd = .detach →
      getClient s.world e.request.remoteProcId e.request.token = none ∧
        (clientRequestHandler s.world e.outcomes e.request).2.status = einvalidParams) :
    entry e.request (clientRequestHandler s.world e.outcomes e.request).2 = 0 := by
  unfold entry
  split
  · next hst =>
    obtain ⟨hna,hdet⟩ := quiet_success ha hd hst
    simp [hna,hdet]
  · rfl

/-- On a ready server every driver attach and detach is made on an edge of
the reference count. -/
theorem serve_callsOnEdges (hs : LedgerInv s) : CallsOnEdges s e := by
  intro core
  unfold newCalls
  rcases request_cases e.outcomes e.request hs.ready with
    ⟨v,ext,i,hc,hf,h⟩ | ⟨i,hc,hg,hst,h⟩ | ⟨h,-,-⟩
  · change AttachEffect _ _ _ _ _ _ (serve s e).world _ at h
    rw [h.mcmCalls]
    by_cases hz : s.world.refCnt e.request.remoteProcId = 0
    · rw [if_pos hz,List.drop_left]
      constructor
      · intro hm
        obtain rfl : core = e.request.remoteProcId := by simpa using hm
        rw [h.refCnt,if_pos rfl,hz]
        exact ⟨rfl,rfl⟩
      · intro hm
        simp at hm
    · rw [if_neg hz,List.drop_length]
      simp
  · change DetachEffect _ _ _ _ (serve s e).world at h
    rw [h.mcmCalls]
    by_cases h1 : s.world.refCnt e.request.remoteProcId = 1
    · rw [if_pos h1,List.drop_left]
      constructor
      · intro hm
        simp at hm
      · intro hm
        obtain rfl : core = e.request.remoteProcId := by simpa using hm
        rw [h.refCnt,if_pos rfl,h1]
        exact ⟨rfl,rfl⟩
    · rw [if_neg h1,List.drop_length]
      simp
  · change QuietEffect _ (serve s e).world at h
    rw [h.platform,List.drop_length]
    simp

/-- From agreeing books, a step leaves them agreeing exactly when its
driver steps succeed. -/
theorem serve_balanced_iff (hs : LedgerInv s) :
    Balanced (serve s e) ↔ StepsSucceed s e := by
  rcases request_cases e.outcomes e.request hs.ready with
    ⟨v,ext,i,hc,hf,h⟩ | ⟨i,hc,hg,hst,h⟩ | ⟨h,ha,hd⟩
  · change AttachEffect _ _ _ _ _ _ (serve s e).world _ at h
    have hcore := attach_coreBalanced hs hc h
    have hdet : e.request.cmd ≠ .detach := by
      intro hd
      simp [hd,Cmd.attachPort] at hc
    constructor
    · intro hb
      refine ⟨?_,fun hd => absurd hd hdet⟩
      intro v' ext' hc' _
      obtain ⟨rfl,rfl⟩ : v = v' ∧ ext = ext' := by simpa using hc.symm.trans hc'
      exact hcore.mp (hb e.request.remoteProcId)
    · intro hG core
      by_cases hne : core = e.request.remoteProcId
      · subst hne
        exact hcore.mpr (hG.1 v ext hc hf)
      · exact attach_others h hne (hs.balanced core)
  · change DetachEffect _ _ _ _ (serve s e).world at h
    have hcore := detach_coreBalanced hs hc hg hst h
    constructor
    · intro hb
      refine ⟨?_,fun _ _ => hcore.mp (hb e.request.remoteProcId)⟩
      intro v ext ha
      simp [hc,Cmd.attachPort] at ha
    · intro hG core
      by_cases hne : core = e.request.remoteProcId
      · subst hne
        exact hcore.mpr (hG.2 hc (by simp [hg]))
      · exact detach_others h hne (hs.balanced core)
  · constructor
    · intro _
      refine ⟨fun v ext hc hf => absurd hf (ha v ext hc).1,fun hdet hg => ?_⟩
      exact absurd (hd hdet).1 hg
    · intro _ core
      exact quiet_coreBalanced h (quiet_entry ha hd) (hs.balanced core)

/-- Guarded steps keep the invariant of the books. -/
theorem serve_inv (hs : LedgerInv s) (hG : StepsSucceed s e) : LedgerInv (serve s e) := by
  have hb := (serve_balanced_iff hs).mpr hG
  rcases request_cases e.outcomes e.request hs.ready with
    ⟨v,ext,i,hc,hf,h⟩ | ⟨i,hc,hg,hst,h⟩ | ⟨h,-,-⟩
  · change AttachEffect _ _ _ _ _ _ (serve s e).world _ at h
    refine ⟨⟨h.initDone.trans hs.ready.1,h.hMcmCmdIf.trans hs.ready.2⟩,hb,?_⟩
    intro core j hu
    by_cases hne : core = e.request.remoteProcId
    · subst hne
      by_cases hj : j = i
      · subst hj
        have hmtu : mtuOk s.world e.outcomes e.request.remoteProcId = true :=
          (hG.1 v ext hc hf).1.1
        rw [h.token,if_pos hmtu]
        exact virtPort2Token_ne_tokenNone v
      · rw [h.table,update_of_ne hj] at hu ⊢
        exact hs.tokens _ j hu
    · rw [h.others core hne] at hu ⊢
      exact hs.tokens core j hu
  · change DetachEffect _ _ _ _ (serve s e).world at h
    refine ⟨⟨h.initDone.trans hs.ready.1,h.hMcmCmdIf.trans hs.ready.2⟩,hb,?_⟩
    intro core j hu
    by_cases hne : core = e.request.remoteProcId
    · subst hne
      by_cases hj : j = i
      · subst hj
        rw [h.table,update_self] at hu
        simp [ClientObj.free,ClientObj.zero] at hu
      · rw [h.table,update_of_ne hj] at hu ⊢
        exact hs.tokens _ j hu
    · rw [h.others core hne] at hu ⊢
      exact hs.tokens core j hu
  · change QuietEffect _ (serve s e).world at h
    refine ⟨⟨h.initDone.trans hs.ready.1,h.hMcmCmdIf.trans hs.ready.2⟩,hb,?_⟩
    intro core j hu
    rw [h.client core j] at hu ⊢
    exact hs.tokens core j hu

end Step

/-- Along every run of an initialised server, of any requests in any order
with any driver results, the books of every core agree in every state and
the driver calls are made on the edges of the count exactly when every
attach that finds a free slot and every last detach has all its steps
succeed. -/
theorem ledger_balanced_iff (procs : ℕ) (csum : Bool) (cfg : List VirtPortCfg)
    (events : List (Event procs)) :
    Along serve Balanced (initLedger procs csum cfg) events ∧
        Guarded serve CallsOnEdges (initLedger procs csum cfg) events ↔
      Guarded serve StepsSucceed (initLedger procs csum cfg) events := by
  apply along_and_guarded_iff (I := LedgerInv)
  · exact fun s hs => hs.balanced
  · exact fun s e hs hG => serve_inv hs hG
  · intro s e hs
    rw [serve_balanced_iff hs]
    exact and_iff_left (serve_callsOnEdges hs)
  · exact ledgerInv_init csum cfg

/-- One ATTACH whose transmit units differ keeps its reference and gives
no token: the books no longer agree. -/
theorem ledger_not_balanced_after_failed_attach :
    ¬ Along serve Balanced (initLedger 1 false [])
      [⟨plainOutcomes fun i => if i = 0 then 1518#32 else 1500#32,
        ⟨0,100#32,3#8,0#32,0#32,.attach 25#32⟩⟩] := by
  intro h
  have hslots := (along_final h 0).slots
  revert hslots
  decide

end EthernetFirmware.ProxyServerLedger
