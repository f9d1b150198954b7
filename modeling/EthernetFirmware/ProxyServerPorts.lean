import EthernetFirmware.GuardedRuns
import EthernetFirmware.ProxyServerRequests

/-!
# Virtual ports and their owners

The configuration assigns every virtual port to a core and to client
identities, and VIRT_PORT_INFO offers a caller the ports assigned to it.
The attach handlers store the requested port without consulting the
assignment. The module describes what is offered, states what it means
that the clients own their ports, and gives the exact condition on the
attach requests of a run under which they do.

An attached client is a slot in use with a valid token, as the server
counts them. A failed attach can leave a slot in use with the reserved
token; that slot is no attached client, but a request with this token
acts on its port.
-/

namespace EthernetFirmware.ProxyServerPorts

open Function SlotTables BitMasks RemoteConfig ProxyServerClients ProxyServerRequests
open GuardedRuns

variable {procs : ℕ}

/-- A configuration entry serves a client identity of a core. -/
def Serves (c : VirtPortCfg) (hostId clientId : ℕ) : Prop :=
  c.remoteCoreId = hostId ∧ isSet c.clientIdMask clientId = true

instance (c : VirtPortCfg) (hostId clientId : ℕ) : Decidable (Serves c hostId clientId) :=
  inferInstanceAs (Decidable (_ ∧ _))

/-- VIRT_PORT_INFO offers the port: the answer is a success and the bit of
the port is set in the mask of its kind. -/
def Offered (s : Server procs) (hostId clientId : ℕ) (v : U32) : Prop :=
  ∃ m, virtPortAllocCb s clientId hostId = (sok,some m) ∧
    isSet (if isSwitchPort v then m.switchPortMask else m.macPortMask) v.toNat = true

section Masks

variable {clientId hostId : ℕ} {acc : PortMasks × Bool}

theorem portMaskStep_switch (c : VirtPortCfg) (b : ℕ) :
    isSet (portMaskStep clientId hostId acc c).1.switchPortMask b = true ↔
      isSet acc.1.switchPortMask b = true ∨
        Serves c hostId clientId ∧ isSwitchPort c.portId.val = true ∧ c.portId.val.toNat = b := by
  have hlt := c.portId.toNat_lt
  unfold portMaskStep Serves
  by_cases hs : c.remoteCoreId = hostId ∧ isSet c.clientIdMask clientId = true
  · by_cases hk : isSwitchPort c.portId.val = true
    · simp [hs,hk,isSet_bit,hlt]
    · simp [hs,hk]
  · simp [hs]

theorem portMaskStep_mac (c : VirtPortCfg) (b : ℕ) :
    isSet (portMaskStep clientId hostId acc c).1.macPortMask b = true ↔
      isSet acc.1.macPortMask b = true ∨
        Serves c hostId clientId ∧ isSwitchPort c.portId.val = false ∧
          c.portId.val.toNat = b := by
  have hlt := c.portId.toNat_lt
  unfold portMaskStep Serves
  by_cases hs : c.remoteCoreId = hostId ∧ isSet c.clientIdMask clientId = true
  · by_cases hk : isSwitchPort c.portId.val = true
    · simp [hs,hk]
    · simp [hs,hk,isSet_bit,hlt]
  · simp [hs]

theorem portMaskStep_found (c : VirtPortCfg) :
    (portMaskStep clientId hostId acc c).2 = true ↔
      acc.2 = true ∨ Serves c hostId clientId := by
  unfold portMaskStep Serves
  by_cases hs : c.remoteCoreId = hostId ∧ isSet c.clientIdMask clientId = true
  · by_cases hk : isSwitchPort c.portId.val = true <;> simp [hs,hk]
  · simp [hs]

/-- What the scan over the configuration accumulates. -/
theorem foldl_portMaskStep (clientId hostId : ℕ) (acc : PortMasks × Bool)
    (cfg : List VirtPortCfg) (b : ℕ) :
    (isSet (cfg.foldl (portMaskStep clientId hostId) acc).1.switchPortMask b = true ↔
      isSet acc.1.switchPortMask b = true ∨ ∃ c ∈ cfg, Serves c hostId clientId ∧
        isSwitchPort c.portId.val = true ∧ c.portId.val.toNat = b) ∧
    (isSet (cfg.foldl (portMaskStep clientId hostId) acc).1.macPortMask b = true ↔
      isSet acc.1.macPortMask b = true ∨ ∃ c ∈ cfg, Serves c hostId clientId ∧
        isSwitchPort c.portId.val = false ∧ c.portId.val.toNat = b) ∧
    ((cfg.foldl (portMaskStep clientId hostId) acc).2 = true ↔
      acc.2 = true ∨ ∃ c ∈ cfg, Serves c hostId clientId) := by
  induction cfg generalizing acc with
  | nil => simp
  | cons c cs ih =>
    obtain ⟨hs,hm,hf⟩ := ih (portMaskStep clientId hostId acc c)
    rw [List.foldl_cons,hs,hm,hf,portMaskStep_switch,portMaskStep_mac,portMaskStep_found]
    simp only [List.mem_cons,exists_eq_or_imp,or_assoc,and_self]

end Masks

/-- The ports offered are those the configuration assigns to the caller's
core and client identity. -/
theorem offered_iff {s : Server procs} (hr : s.initDone = true) {hostId clientId : ℕ}
    {v : U32} :
    Offered s hostId clientId v ↔ clientId ≤ clientIdLast ∧
      ∃ c ∈ s.virtPortCfg, c.portId.val = v ∧ Serves c hostId clientId := by
  obtain ⟨hsw,hmac,hfound⟩ := foldl_portMaskStep clientId hostId (⟨0#32,0#32⟩,false)
    s.virtPortCfg v.toNat
  simp only [isSet_zero,Bool.false_eq_true,false_or] at hsw hmac hfound
  unfold Offered virtPortAllocCb getPortMask
  constructor
  · rintro ⟨m,hm,hbit⟩
    by_cases hid : clientId ≤ clientIdLast
    · rw [if_pos hid] at hm
      obtain ⟨-,rfl⟩ : _ ∧ _ = m := by simpa using hm
      refine ⟨hid,?_⟩
      by_cases hk : isSwitchPort v = true
      · rw [if_pos hk] at hbit
        obtain ⟨c,hc,hserves,-,hnat⟩ := hsw.mp hbit
        exact ⟨c,hc,BitVec.eq_of_toNat_eq hnat,hserves⟩
      · rw [if_neg hk] at hbit
        obtain ⟨c,hc,hserves,-,hnat⟩ := hmac.mp hbit
        exact ⟨c,hc,BitVec.eq_of_toNat_eq hnat,hserves⟩
    · rw [if_neg hid] at hm
      simp at hm
  · rintro ⟨hid,c,hc,rfl,hserves⟩
    rw [if_pos hid]
    have hf := hfound.mpr ⟨c,hc,hserves⟩
    refine ⟨_,by simp only [hf,getHandle,hr,if_true]; rfl,?_⟩
    by_cases hk : isSwitchPort c.portId.val = true
    · rw [if_pos hk]
      exact hsw.mpr ⟨c,hc,hserves,hk,rfl⟩
    · rw [if_neg hk]
      exact hmac.mpr ⟨c,hc,hserves,by simpa using hk,rfl⟩

/-- The configured assignments of a port are listed by `assignments`. -/
theorem exists_assignment {w : World procs} {v : U32} {p : ℕ → U32 → Prop} :
    (∃ c ∈ w.server.virtPortCfg, c.portId.val = v ∧ p c.remoteCoreId c.clientIdMask) ↔
      ∃ a ∈ w.assignments, a.1 = v ∧ p a.2.1 a.2.2 := by
  unfold World.assignments
  simp only [List.mem_map,exists_exists_and_eq_and]
  rfl

/-- What is offered depends on the port assignments alone. -/
theorem offered_congr {w w' : World procs} (hr : w.server.initDone = true)
    (hr' : w'.server.initDone = true) (ha : w'.assignments = w.assignments)
    {hostId clientId : ℕ} {v : U32} :
    Offered w'.server hostId clientId v ↔ Offered w.server hostId clientId v := by
  have hserves : ∀ w : World procs, (∃ c ∈ w.server.virtPortCfg, c.portId.val = v ∧
      Serves c hostId clientId) ↔
      ∃ a ∈ w.assignments, a.1 = v ∧ a.2.1 = hostId ∧ isSet a.2.2 clientId = true :=
    fun w => exists_assignment (p := fun core mask => core = hostId ∧ isSet mask clientId = true)
  rw [offered_iff hr,offered_iff hr',hserves w,hserves w',ha]

/-- The port is configured, for other cores only. -/
def Foreign (s : Server procs) (core : ℕ) (v : U32) : Prop :=
  (∃ c ∈ s.virtPortCfg, c.portId.val = v) ∧
    ∀ c ∈ s.virtPortCfg, c.portId.val = v → c.remoteCoreId ≠ core

instance (s : Server procs) (core : ℕ) (v : U32) : Decidable (Foreign s core v) :=
  inferInstanceAs (Decidable (_ ∧ _))

/-- A port is foreign to a core as its assignments say. -/
theorem foreign_congr {w w' : World procs} (ha : w'.assignments = w.assignments) {core : ℕ}
    {v : U32} : Foreign w'.server core v ↔ Foreign w.server core v := by
  have hforeign : ∀ w : World procs, Foreign w.server core v ↔
      (∃ a ∈ w.assignments, a.1 = v) ∧ ¬ ∃ a ∈ w.assignments, a.1 = v ∧ a.2.1 = core := by
    intro w
    have hany := exists_assignment (w := w) (v := v) (p := fun _ _ => True)
    have hown := exists_assignment (w := w) (v := v) (p := fun c _ => c = core)
    simp only [and_true] at hany
    rw [← hany,← hown]
    simp only [Foreign,not_exists,not_and]
  rw [hforeign w,hforeign w',ha]

/-- Attached clients hold ports offered to them, no port twice, and no slot
in use holds a port of another core. -/
structure PortsOwned (w : World procs) : Prop where
  /-- The port of an attached client is offered to its core and identity. -/
  offered : ∀ core i, (w.client core i).attached = true →
    Offered w.server core (w.client core i).clientId.toNat (w.client core i).virtPort
  /-- No port is held by two attached clients, of one core or of two. -/
  distinct : ∀ core i core' j, (w.client core i).attached = true →
    (w.client core' j).attached = true →
    (w.client core i).virtPort = (w.client core' j).virtPort → core = core' ∧ i = j
  /-- No slot that a token can resolve to holds a port of another core. -/
  acts : ∀ core i, (w.client core i).inUse = true →
    ¬ Foreign w.server core (w.client core i).virtPort

/-- An attach for a port that is not offered to the caller is answered
with an error. -/
def OthersRefused (w : World procs) (e : Event procs) : Prop :=
  ∀ v ext, e.request.cmd.attachPort = some (v,ext) →
    ¬ Offered w.server e.request.remoteProcId e.request.clientId.toNat v →
    (answer w e).status ≠ sok

/-- An attach that finds a free slot names a port offered to the caller
and held by no attached client, or, when its transmit units differ, at
least no port of another core. -/
def OwnPort (w : World procs) (e : Event procs) : Prop :=
  ∀ v ext, e.request.cmd.attachPort = some (v,ext) → w.hasFreeSlot e.request.remoteProcId →
    if mtuOk w e.outcomes e.request.remoteProcId = true then
      Offered w.server e.request.remoteProcId e.request.clientId.toNat v ∧
        ∀ core i, (w.client core i).attached = true → (w.client core i).virtPort ≠ v
    else ¬ Foreign w.server e.request.remoteProcId v

/-- What guarded runs keep. -/
def PortInv (w : World procs) : Prop := Ready w ∧ PortsOwned w

/-- An offered port is no port of another core. -/
theorem not_foreign_of_offered {s : Server procs} (hr : s.initDone = true)
    {hostId clientId : ℕ} {v : U32} (h : Offered s hostId clientId v) : ¬ Foreign s hostId v := by
  obtain ⟨-,c,hc,hport,hserves⟩ := (offered_iff hr).mp h
  exact fun hf => hf.2 c hc hport hserves.1

theorem inUse_of_attached {c : ClientObj} (h : c.attached = true) : c.inUse = true :=
  (Bool.and_eq_true_iff.mp h).1

theorem attached_iff {c : ClientObj} :
    c.attached = true ↔ c.inUse = true ∧ c.token ≠ tokenNone := by
  simp [ClientObj.attached]

theorem portInv_init (csum : Bool) (cfg : List VirtPortCfg) :
    PortInv (initServer procs csum cfg) := by
  refine ⟨ready_initServer csum cfg,?_,?_,?_⟩
  · intro core i hu
    simp [ClientObj.attached,ClientObj.zero] at hu
  · intro core i core' j hu
    simp [ClientObj.attached,ClientObj.zero] at hu
  · intro core i hu
    simp [ClientObj.zero] at hu

/-- The part of a client object that port ownership sees. -/
def portView (c : ClientObj) : Bool × Bool × U32 × U32 :=
  (c.inUse,c.attached,c.virtPort,c.clientId)

/-- Ports stay owned when the assignments are the same and the slots in use
look as they did. -/
theorem portsOwned_of_kept {w w' : World procs} (h : PortInv w)
    (hr' : w'.server.initDone = true) (ha : w'.assignments = w.assignments)
    (hkept : ∀ core j, (w'.client core j).inUse = true →
      portView (w'.client core j) = portView (w.client core j)) : PortsOwned w' := by
  simp only [portView,Prod.mk.injEq] at hkept
  have hatt : ∀ core j, (w'.client core j).attached = true →
      (w.client core j).attached = true ∧
        (w'.client core j).virtPort = (w.client core j).virtPort ∧
        (w'.client core j).clientId = (w.client core j).clientId := by
    intro core j hj
    obtain ⟨-,hja,hjv,hji⟩ := hkept core j (inUse_of_attached hj)
    exact ⟨hja ▸ hj,hjv,hji⟩
  constructor
  · intro core j hj
    obtain ⟨hja,hjv,hji⟩ := hatt core j hj
    rw [hjv,hji,offered_congr h.1.1 hr' ha]
    exact h.2.offered core j hja
  · intro core j core' k hj hk hjk
    obtain ⟨hja,hjv,-⟩ := hatt core j hj
    obtain ⟨hka,hkv,-⟩ := hatt core' k hk
    exact h.2.distinct core j core' k hja hka (hjv.symm.trans (hjk.trans hkv))
  · intro core j hj
    obtain ⟨hju,-,hjv,-⟩ := hkept core j hj
    rw [hjv,foreign_congr ha]
    exact h.2.acts core j (hju ▸ hj)

section Step

variable {w : World procs} {e : Event procs} {v : U32} {ext : Bool} {i : Slot}

/-- An attach that takes a slot rewrites that slot alone. -/
theorem attach_kept {ok : Prop} {res : Response}
    (h : AttachEffect w e.outcomes e.request v ok i (handle w e) res) {core : Fin procs}
    {j : Slot} (hne : ¬ (core = e.request.remoteProcId ∧ j = i)) :
    (handle w e).client core j = w.client core j := by
  by_cases hc : core = e.request.remoteProcId
  · subst hc
    have hj : j ≠ i := fun hj => hne ⟨rfl,hj⟩
    rw [h.table,update_of_ne hj]
  · rw [h.others core hc]

/-- The slot an attach takes was not in use. -/
theorem attach_ne {ok : Prop} {res : Response}
    (h : AttachEffect w e.outcomes e.request v ok i (handle w e) res) {core : Fin procs}
    {j : Slot} (hu : (w.client core j).inUse = true) :
    ¬ (core = e.request.remoteProcId ∧ j = i) := by
  rintro ⟨rfl,rfl⟩
  rw [h.wasFree] at hu
  contradiction

/-- The slot an attach takes is an attached client exactly when the
transmit units agree. -/
theorem attach_attached_iff {ok : Prop} {res : Response}
    (h : AttachEffect w e.outcomes e.request v ok i (handle w e) res) :
    ((handle w e).client e.request.remoteProcId i).attached = true ↔
      mtuOk w e.outcomes e.request.remoteProcId = true := by
  rw [attached_iff,h.token]
  by_cases hmtu : mtuOk w e.outcomes e.request.remoteProcId = true
  · simp [h.inUse,hmtu,virtPort2Token_ne_tokenNone v]
  · simp [hmtu]

theorem attach_clientId {ok : Prop} {res : Response}
    (h : AttachEffect w e.outcomes e.request v ok i (handle w e) res) :
    ((handle w e).client e.request.remoteProcId i).clientId.toNat =
      e.request.clientId.toNat := by
  rw [h.clientId]
  simp
  omega

/-- An attach that takes a slot under the condition leaves the ports
owned. -/
theorem attach_portsOwned (hw : PortInv w) {ok : Prop} {res : Response}
    (h : AttachEffect w e.outcomes e.request v ok i (handle w e) res)
    (hown : mtuOk w e.outcomes e.request.remoteProcId = true →
      Offered w.server e.request.remoteProcId e.request.clientId.toNat v ∧
        ∀ core j, (w.client core j).attached = true → (w.client core j).virtPort ≠ v)
    (hforeign : ¬ Foreign w.server e.request.remoteProcId v) : PortsOwned (handle w e) := by
  have hr' : (handle w e).server.initDone = true := h.initDone.trans hw.1.1
  constructor
  · intro core j hj
    rw [offered_congr hw.1.1 hr' h.assignments]
    by_cases hcj : core = e.request.remoteProcId ∧ j = i
    · obtain ⟨rfl,rfl⟩ := hcj
      rw [attach_clientId h,h.virtPort]
      exact (hown ((attach_attached_iff h).mp hj)).1
    · rw [attach_kept h hcj] at hj ⊢
      exact hw.2.offered core j hj
  · intro core j core' k hj hk hjk
    by_cases hcj : core = e.request.remoteProcId ∧ j = i
    · by_cases hck : core' = e.request.remoteProcId ∧ k = i
      · exact ⟨hcj.1.trans hck.1.symm,hcj.2.trans hck.2.symm⟩
      · rw [hcj.1,hcj.2] at hj
        rw [attach_kept h hck] at hk hjk
        rw [hcj.1,hcj.2,h.virtPort] at hjk
        exact absurd hjk.symm ((hown ((attach_attached_iff h).mp hj)).2 core' k hk)
    · by_cases hck : core' = e.request.remoteProcId ∧ k = i
      · rw [hck.1,hck.2] at hk
        rw [attach_kept h hcj] at hj hjk
        rw [hck.1,hck.2,h.virtPort] at hjk
        exact absurd hjk ((hown ((attach_attached_iff h).mp hk)).2 core j hj)
      · rw [attach_kept h hcj] at hj hjk
        rw [attach_kept h hck] at hk hjk
        exact hw.2.distinct core j core' k hj hk hjk
  · intro core j hj
    rw [foreign_congr h.assignments]
    by_cases hcj : core = e.request.remoteProcId ∧ j = i
    · obtain ⟨rfl,rfl⟩ := hcj
      rwa [h.virtPort]
    · rw [attach_kept h hcj] at hj ⊢
      exact hw.2.acts core j hj

/-- After an attach that takes a slot the ports are owned exactly when the
port it names is the caller's own. -/
theorem attach_portsOwned_iff (hw : PortInv w) {ok : Prop} {res : Response}
    (h : AttachEffect w e.outcomes e.request v ok i (handle w e) res) :
    PortsOwned (handle w e) ↔
      if mtuOk w e.outcomes e.request.remoteProcId = true then
        Offered w.server e.request.remoteProcId e.request.clientId.toNat v ∧
          ∀ core j, (w.client core j).attached = true → (w.client core j).virtPort ≠ v
      else ¬ Foreign w.server e.request.remoteProcId v := by
  have hr' : (handle w e).server.initDone = true := h.initDone.trans hw.1.1
  by_cases hmtu : mtuOk w e.outcomes e.request.remoteProcId = true
  · rw [if_pos hmtu]
    have hatt := (attach_attached_iff h).mpr hmtu
    constructor
    · intro hp
      have hport := hp.offered e.request.remoteProcId i hatt
      rw [offered_congr hw.1.1 hr' h.assignments,attach_clientId h,h.virtPort] at hport
      refine ⟨hport,fun core j hj hv => attach_ne h (inUse_of_attached hj) ?_⟩
      have hkept := attach_kept h (attach_ne h (inUse_of_attached hj))
      apply hp.distinct core j e.request.remoteProcId i
      · rwa [hkept]
      · exact hatt
      · rw [hkept,hv,h.virtPort]
    · intro hown
      exact attach_portsOwned hw h (fun _ => hown) (not_foreign_of_offered hw.1.1 hown.1)
  · rw [if_neg hmtu]
    constructor
    · intro hp
      have hacts := hp.acts e.request.remoteProcId i h.inUse
      rwa [foreign_congr h.assignments,h.virtPort] at hacts
    · exact fun hno => attach_portsOwned hw h (fun hyes => absurd hyes hmtu) hno

/-- A detach that resolves leaves the remaining ports owned. -/
theorem detach_portsOwned (hw : PortInv w)
    (h : DetachEffect w e.outcomes e.request.remoteProcId i (handle w e)) :
    PortsOwned (handle w e) := by
  refine portsOwned_of_kept hw (h.initDone.trans hw.1.1) h.assignments ?_
  intro core j hu
  by_cases hc : core = e.request.remoteProcId
  · subst hc
    by_cases hj : j = i
    · subst hj
      rw [h.table,update_self] at hu
      simp [ClientObj.free,ClientObj.zero] at hu
    · rw [h.table,update_of_ne hj]
  · rw [h.others core hc]

/-- A quiet request leaves the ports owned. -/
theorem quiet_portsOwned (hw : PortInv w) (h : QuietEffect w (handle w e)) :
    PortsOwned (handle w e) := by
  refine portsOwned_of_kept hw (h.initDone.trans hw.1.1) h.assignments ?_
  intro core j _
  rw [h.client core j]
  rfl

/-- From owned ports, a step keeps them owned and refuses the ports of
others exactly when an attach that takes a slot names an own port. -/
theorem handle_portsOwned_iff (hw : PortInv w) :
    PortsOwned (handle w e) ∧ OthersRefused w e ↔ OwnPort w e := by
  rcases request_cases e.outcomes e.request hw.1 with
    ⟨v,ext,i,hc,hf,h⟩ | ⟨i,hc,-,-,h⟩ | ⟨h,ha,-⟩
  · change AttachEffect _ _ _ _ _ _ (handle w e) (answer w e) at h
    have hiff := attach_portsOwned_iff hw h
    have hsame : ∀ v' ext', e.request.cmd.attachPort = some (v',ext') → v' = v := by
      intro v' ext' hc'
      exact (Prod.mk.inj (Option.some.inj (hc'.symm.trans hc))).1
    constructor
    · rintro ⟨hp,-⟩ v' ext' hc' _
      rw [hsame v' ext' hc']
      exact hiff.mp hp
    · intro hG
      have hown := hG v ext hc hf
      refine ⟨hiff.mpr hown,fun v' ext' hc' hno hst => ?_⟩
      rw [hsame v' ext' hc'] at hno
      rw [if_pos (h.status.mp hst).1] at hown
      exact hno hown.1
  · change DetachEffect _ _ _ _ (handle w e) at h
    have hna : ∀ v ext, e.request.cmd.attachPort ≠ some (v,ext) := by
      intro v ext ha
      simp [hc,Cmd.attachPort] at ha
    constructor
    · intro _ v ext ha
      exact absurd ha (hna v ext)
    · intro _
      exact ⟨detach_portsOwned hw h,fun v ext ha => absurd ha (hna v ext)⟩
  · change QuietEffect _ (handle w e) at h
    constructor
    · intro _ v ext hc hf
      exact absurd hf (ha v ext hc).1
    · intro _
      refine ⟨quiet_portsOwned hw h,fun v ext hc _ hst => ?_⟩
      exact ealloc_ne_sok ((ha v ext hc).2.symm.trans hst)

end Step

/-- Along every run of an initialised server with any port configuration,
of any requests of any cores and clients, attached clients hold ports
offered to them and no port twice, no slot in use holds a port of another
core and attaches for other ports are refused, exactly when every attach
that finds a free slot names an own port. -/
theorem ports_owned_iff (procs : ℕ) (csum : Bool) (cfg : List VirtPortCfg)
    (events : List (Event procs)) :
    Along handle PortsOwned (initServer procs csum cfg) events ∧
        Guarded handle OthersRefused (initServer procs csum cfg) events ↔
      Guarded handle OwnPort (initServer procs csum cfg) events := by
  apply along_and_guarded_iff (I := PortInv)
  · exact fun w hw => hw.2
  · intro w e hw hG
    exact ⟨ready_handle hw.1,((handle_portsOwned_iff hw).mpr hG).1⟩
  · exact fun w e hw => handle_portsOwned_iff hw
  · exact portInv_init csum cfg

/-- Switch port 25 assigned to clients of core 0. -/
def port25OfCore0 : VirtPortCfg where
  portId := switchPort
  remoteCoreId := 0
  numTxCh := 1#32
  numRxFlow := 1#32
  rxFlowIdxOffset := [0#32]
  clientIdMask := 8#32

/-- Core 1 attaches the port of core 0 and acts on it with its token, and
a port of no configuration is attached with success as well. -/
theorem ports_not_owned_after_foreign_attach :
    ¬ Along handle PortsOwned (initServer 2 false [port25OfCore0])
        [⟨plainOutcomes fun _ => 1518#32,⟨1,100#32,3#8,0#32,0#32,.attachExt 25#32⟩⟩] ∧
      ¬ Guarded handle OthersRefused (initServer 2 false [port25OfCore0])
        [⟨plainOutcomes fun _ => 1518#32,⟨1,100#32,3#8,0#32,0#32,.attach 27#32⟩⟩] := by
  constructor
  · intro h
    have hacts := (along_final h).acts 1 0 (by decide)
    revert hacts
    decide
  · intro h
    have hno : ¬ Offered (initServer 2 false [port25OfCore0]).server 1 3 27#32 := by
      rw [offered_iff rfl]
      decide
    exact h.1 27#32 false rfl hno (by decide)

end EthernetFirmware.ProxyServerPorts
