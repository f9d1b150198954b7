import EthernetFirmware.GuardedRuns
import EthernetFirmware.ProxyServerRequests

/-!
# Client tokens of the server proxy

A token is computed from the requested port number, so it names a slot
only as long as no two slots in use carry the same product. The module
keeps the grants a core holds, one for every successful attach that has
not been detached, and states when every grant resolves to the slot that
was allocated for it.

The exact condition is on the request and the state before it: an attach
that finds a free slot gets agreeing transmit units and a product no slot
in use carries.
-/

namespace EthernetFirmware.ProxyServerTokens

open Function SlotTables RemoteConfig ProxyServerClients ProxyServerRequests GuardedRuns

variable {procs : ℕ}

/-- What a successful attach gave its caller. -/
structure Grant where
  /-- Token of the response. -/
  token : U32
  /-- Slot the attach allocated. -/
  slot : Slot
  /-- Identity of the caller. -/
  clientId : U32
  /-- Endpoint of the caller. -/
  remoteEp : U32
  deriving DecidableEq

/-- The server with the grants its cores hold. -/
structure Grants (procs : ℕ) where
  /-- Server and platform. -/
  world : World procs
  /-- Grants of each core that are not yet detached. -/
  live : Fin procs → List Grant

/-- Grants of the requesting core after a request. -/
def booked (s : Grants procs) (e : Event procs) : List Grant :=
  if (answer s.world e).status = sok then
    match e.request.cmd.attachPort with
    | some (v,_) =>
      match allocClient s.world e.request.remoteProcId e.request.remoteEndPt v with
      | some (i,_) =>
        ⟨(answer s.world e).token,i,e.request.clientId.setWidth 32,e.request.remoteEndPt⟩ ::
          s.live e.request.remoteProcId
      | none => s.live e.request.remoteProcId
    | none =>
      if e.request.cmd = .detach then
        (s.live e.request.remoteProcId).filter fun g => g.token != e.request.token
      else s.live e.request.remoteProcId
  else s.live e.request.remoteProcId

/-- Serve a request and book its grant. -/
def serve (s : Grants procs) (e : Event procs) : Grants procs :=
  ⟨handle s.world e,update s.live e.request.remoteProcId (booked s e)⟩

/-- Grants of a server that has just been initialised. -/
def initGrants (procs : ℕ) (csum : Bool) (cfg : List VirtPortCfg) : Grants procs :=
  ⟨initServer procs csum cfg,fun _ => []⟩

/-- The tokens of one core name its clients. -/
structure CoreResolves (s : Grants procs) (core : Fin procs) : Prop where
  /-- No two slots in use carry one token. -/
  unique : ∀ i j, (s.world.client core i).inUse = true → (s.world.client core j).inUse = true →
    (s.world.client core i).token = (s.world.client core j).token → i = j
  /-- Every grant resolves to the slot allocated for it, which records the
  caller. -/
  resolves : ∀ g ∈ s.live core, getClient s.world core g.token = some g.slot ∧
    (s.world.client core g.slot).clientId = g.clientId ∧
    (s.world.client core g.slot).remoteEp = g.remoteEp
  /-- The reserved token resolves to no client. -/
  reserved : getClient s.world core tokenNone = none

/-- The tokens of every core name its clients. -/
def TokensResolve (s : Grants procs) : Prop := ∀ core, CoreResolves s core

/-- An attach that finds a free slot gets agreeing transmit units, and no
slot of the core in use carries the token computed from its port. -/
def FreshToken (s : Grants procs) (e : Event procs) : Prop :=
  ∀ v ext, e.request.cmd.attachPort = some (v,ext) →
    s.world.hasFreeSlot e.request.remoteProcId →
    mtuOk s.world e.outcomes e.request.remoteProcId = true ∧
      ∀ i, (s.world.client e.request.remoteProcId i).inUse = true →
        (s.world.client e.request.remoteProcId i).token ≠ virtPort2Token v

/-- The part of a client object that look-ups and grants see. -/
def lookup (c : ClientObj) : Bool × U32 × U32 × U32 :=
  (c.inUse,c.token,c.clientId,c.remoteEp)

/-- What guarded runs keep. -/
def TokenInv (s : Grants procs) : Prop := Ready s.world ∧ TokensResolve s

theorem tokenInv_init (csum : Bool) (cfg : List VirtPortCfg) :
    TokenInv (initGrants procs csum cfg) := by
  refine ⟨ready_initServer csum cfg,fun core => ?_⟩
  constructor
  · intro i j hi
    simp [initGrants,ClientObj.zero] at hi
  · intro g hg
    simp [initGrants] at hg
  · rw [getClient_eq_none_iff]
    intro i hi
    simp [initGrants,ClientObj.zero] at hi

/-- A grant of a core whose tokens name its clients is held by its slot. -/
theorem CoreResolves.held {s : Grants procs} {core : Fin procs} (h : CoreResolves s core)
    {g : Grant} (hg : g ∈ s.live core) :
    (s.world.client core g.slot).inUse = true ∧
      (s.world.client core g.slot).token = g.token :=
  getClient_eq_some (h.resolves g hg).1

/-- Unique valid tokens and held grants make the tokens name the clients. -/
theorem coreResolves_of_held {s : Grants procs} {core : Fin procs}
    (hu : ∀ i j, (s.world.client core i).inUse = true → (s.world.client core j).inUse = true →
      (s.world.client core i).token = (s.world.client core j).token → i = j)
    (hg : ∀ g ∈ s.live core, (s.world.client core g.slot).inUse = true ∧
      (s.world.client core g.slot).token = g.token ∧
      (s.world.client core g.slot).clientId = g.clientId ∧
      (s.world.client core g.slot).remoteEp = g.remoteEp)
    (hn : ∀ i, (s.world.client core i).inUse = true →
      (s.world.client core i).token ≠ tokenNone) : CoreResolves s core := by
  refine ⟨hu,?_,getClient_eq_none_iff.mpr hn⟩
  intro g hmem
  obtain ⟨hin,htok,hid,hep⟩ := hg g hmem
  refine ⟨getClient_of_unique hin htok ?_,hid,hep⟩
  intro j hj hjt
  exact hu j g.slot hj hin (hjt.trans htok.symm)

section Step

variable {s : Grants procs} {e : Event procs} {v : U32} {ext : Bool} {i : Slot}

/-- The tokens still name the clients when the slots in use and those of
the remaining grants look as they did. -/
theorem CoreResolves.of_kept {s' : Grants procs} {core : Fin procs}
    (h : CoreResolves s core)
    (hkept : ∀ j, (s'.world.client core j).inUse = true →
      lookup (s'.world.client core j) = lookup (s.world.client core j))
    (hlive : ∀ g ∈ s'.live core, g ∈ s.live core ∧
      lookup (s'.world.client core g.slot) = lookup (s.world.client core g.slot)) :
    CoreResolves s' core := by
  simp only [lookup,Prod.mk.injEq] at hkept hlive
  apply coreResolves_of_held
  · intro j k hj hk hjk
    obtain ⟨hju,hjt,-⟩ := hkept j hj
    obtain ⟨hku,hkt,-⟩ := hkept k hk
    exact h.unique j k (hju ▸ hj) (hku ▸ hk) (hjt.symm.trans (hjk.trans hkt))
  · intro g hg
    obtain ⟨hmem,hu,ht,hid,hep⟩ := hlive g hg
    obtain ⟨hin,htok⟩ := h.held hmem
    obtain ⟨-,hid0,hep0⟩ := h.resolves g hmem
    exact ⟨hu.trans hin,ht.trans htok,hid.trans hid0,hep.trans hep0⟩
  · intro j hj
    obtain ⟨hju,hjt,-⟩ := hkept j hj
    rw [hjt]
    exact getClient_eq_none_iff.mp h.reserved j (hju ▸ hj)

/-- Tokens of a core that a step did not touch. -/
theorem CoreResolves.of_untouched {s' : Grants procs} {core : Fin procs}
    (h : CoreResolves s core) (hc : s'.world.client core = s.world.client core)
    (hl : s'.live core = s.live core) : CoreResolves s' core :=
  h.of_kept (fun j _ => by rw [hc]) fun g hg => ⟨hl ▸ hg,by rw [hc]⟩

theorem booked_attach (hc : e.request.cmd.attachPort = some (v,ext))
    (hi : (allocClient s.world e.request.remoteProcId e.request.remoteEndPt v).map Prod.fst
      = some i) :
    booked s e = if (answer s.world e).status = sok then
      ⟨(answer s.world e).token,i,e.request.clientId.setWidth 32,e.request.remoteEndPt⟩ ::
        s.live e.request.remoteProcId
      else s.live e.request.remoteProcId := by
  obtain ⟨⟨k,w1⟩,ha,rfl⟩ := Option.map_eq_some_iff.mp hi
  unfold booked
  simp only [hc,ha]

theorem booked_detach (hc : e.request.cmd = .detach)
    (hst : (answer s.world e).status = sok) :
    booked s e =
      (s.live e.request.remoteProcId).filter fun g => g.token != e.request.token := by
  unfold booked
  rw [if_pos hst]
  simp [hc,Cmd.attachPort]

/-- An attach rewrites no slot in use. -/
theorem attach_kept {ok : Prop} {res : Response}
    (h : AttachEffect s.world e.outcomes e.request v ok i (serve s e).world res) {j : Slot}
    (hj : (s.world.client e.request.remoteProcId j).inUse = true) :
    j ≠ i ∧ (serve s e).world.client e.request.remoteProcId j =
      s.world.client e.request.remoteProcId j := by
  have hji : j ≠ i := by
    rintro rfl
    rw [h.wasFree] at hj
    contradiction
  exact ⟨hji,by rw [h.table,update_of_ne hji]⟩

/-- A slot in use after an attach is the one it took or was in use before. -/
theorem attach_inUse {ok : Prop} {res : Response}
    (h : AttachEffect s.world e.outcomes e.request v ok i (serve s e).world res) {j : Slot}
    (hj : ((serve s e).world.client e.request.remoteProcId j).inUse = true) (hji : j ≠ i) :
    (s.world.client e.request.remoteProcId j).inUse = true := by
  rwa [h.table,update_of_ne hji] at hj

/-- An attach that stores a token no other slot carries keeps the tokens of
slots in use apart. -/
theorem attach_unique {ok : Prop} {res : Response} (hs : TokenInv s)
    (h : AttachEffect s.world e.outcomes e.request v ok i (serve s e).world res)
    (htok : ((serve s e).world.client e.request.remoteProcId i).token = virtPort2Token v)
    (hfresh : ∀ j, (s.world.client e.request.remoteProcId j).inUse = true →
      (s.world.client e.request.remoteProcId j).token ≠ virtPort2Token v) (j k : Slot)
    (hj : ((serve s e).world.client e.request.remoteProcId j).inUse = true)
    (hk : ((serve s e).world.client e.request.remoteProcId k).inUse = true)
    (hjk : ((serve s e).world.client e.request.remoteProcId j).token =
      ((serve s e).world.client e.request.remoteProcId k).token) : j = k := by
  have hother : ∀ j, ((serve s e).world.client e.request.remoteProcId j).inUse = true → j ≠ i →
      ((serve s e).world.client e.request.remoteProcId j).token ≠ virtPort2Token v := by
    intro j hj hji
    have hj0 := attach_inUse h hj hji
    rw [(attach_kept h hj0).2]
    exact hfresh j hj0
  by_cases hji : j = i
  · by_contra hjk'
    have hki : k ≠ i := fun hki => hjk' (hji.trans hki.symm)
    exact hother k hk hki (hjk.symm.trans (hji ▸ htok))
  · by_cases hki : k = i
    · exact absurd (hjk.trans (hki ▸ htok)) (hother j hj hji)
    · have hj0 := attach_inUse h hj hji
      have hk0 := attach_inUse h hk hki
      rw [(attach_kept h hj0).2,(attach_kept h hk0).2] at hjk
      exact (hs.2 e.request.remoteProcId).unique j k hj0 hk0 hjk

/-- After an attach every grant booked is held by its slot. -/
theorem attach_held (hs : TokenInv s) (hc : e.request.cmd.attachPort = some (v,ext))
    (h : AttachEffect s.world e.outcomes e.request v
      (attachStepsOk s.world e.outcomes e.request.remoteProcId ext) i (serve s e).world
      (answer s.world e)) (g : Grant) (hg : g ∈ (serve s e).live e.request.remoteProcId) :
    ((serve s e).world.client e.request.remoteProcId g.slot).inUse = true ∧
      ((serve s e).world.client e.request.remoteProcId g.slot).token = g.token ∧
      ((serve s e).world.client e.request.remoteProcId g.slot).clientId = g.clientId ∧
      ((serve s e).world.client e.request.remoteProcId g.slot).remoteEp = g.remoteEp := by
  have hcore := hs.2 e.request.remoteProcId
  have hlive : (serve s e).live e.request.remoteProcId = booked s e := by simp [serve]
  have hold : g ∈ s.live e.request.remoteProcId →
      ((serve s e).world.client e.request.remoteProcId g.slot).inUse = true ∧
      ((serve s e).world.client e.request.remoteProcId g.slot).token = g.token ∧
      ((serve s e).world.client e.request.remoteProcId g.slot).clientId = g.clientId ∧
      ((serve s e).world.client e.request.remoteProcId g.slot).remoteEp = g.remoteEp := by
    intro hmem
    obtain ⟨hin,ht⟩ := hcore.held hmem
    rw [(attach_kept h hin).2]
    exact ⟨hin,ht,(hcore.resolves g hmem).2⟩
  rw [hlive,booked_attach hc h.given] at hg
  split at hg
  · rcases List.mem_cons.mp hg with rfl | hmem
    · exact ⟨h.inUse,h.resToken.symm,h.clientId,h.remoteEp⟩
    · exact hold hmem
  · exact hold hg

/-- An attach that stores a token no other slot carries keeps the core's
tokens naming its clients. -/
theorem attach_resolves (hs : TokenInv s) (hc : e.request.cmd.attachPort = some (v,ext))
    (h : AttachEffect s.world e.outcomes e.request v
      (attachStepsOk s.world e.outcomes e.request.remoteProcId ext) i (serve s e).world
      (answer s.world e))
    (hmtu : mtuOk s.world e.outcomes e.request.remoteProcId = true)
    (hfresh : ∀ j, (s.world.client e.request.remoteProcId j).inUse = true →
      (s.world.client e.request.remoteProcId j).token ≠ virtPort2Token v) :
    CoreResolves (serve s e) e.request.remoteProcId := by
  have htok : ((serve s e).world.client e.request.remoteProcId i).token = virtPort2Token v := by
    rw [h.token,if_pos hmtu]
  refine coreResolves_of_held (attach_unique hs h htok hfresh) (attach_held hs hc h) ?_
  intro j hj
  by_cases hji : j = i
  · rw [hji,htok]
    exact virtPort2Token_ne_tokenNone v
  · have hj0 := attach_inUse h hj hji
    rw [(attach_kept h hj0).2]
    exact getClient_eq_none_iff.mp (hs.2 e.request.remoteProcId).reserved j hj0

/-- After an attach that takes a slot the core's tokens name its clients
exactly when the attach stored a token no other slot carries. -/
theorem attach_resolves_iff (hs : TokenInv s)
    (hc : e.request.cmd.attachPort = some (v,ext))
    (h : AttachEffect s.world e.outcomes e.request v
      (attachStepsOk s.world e.outcomes e.request.remoteProcId ext) i (serve s e).world
      (answer s.world e)) :
    CoreResolves (serve s e) e.request.remoteProcId ↔
      mtuOk s.world e.outcomes e.request.remoteProcId = true ∧
        ∀ j, (s.world.client e.request.remoteProcId j).inUse = true →
          (s.world.client e.request.remoteProcId j).token ≠ virtPort2Token v := by
  refine ⟨fun hr => ?_,fun hG => attach_resolves hs hc h hG.1 hG.2⟩
  have hmtu : mtuOk s.world e.outcomes e.request.remoteProcId = true := by
    by_contra hno
    have htok := h.token
    rw [if_neg hno] at htok
    exact getClient_eq_none_iff.mp hr.reserved i h.inUse htok
  refine ⟨hmtu,fun j hj htok => ?_⟩
  obtain ⟨hji,hkept⟩ := attach_kept h hj
  apply hji
  apply hr.unique j i
  · rw [hkept]
    exact hj
  · exact h.inUse
  · rw [hkept,htok,h.token,if_pos hmtu]

/-- A detach that resolves keeps the core's tokens naming its clients. -/
theorem detach_resolves (hs : TokenInv s) (hc : e.request.cmd = .detach)
    (hg : getClient s.world e.request.remoteProcId e.request.token = some i)
    (hst : (answer s.world e).status = sok)
    (h : DetachEffect s.world e.outcomes e.request.remoteProcId i (serve s e).world) :
    CoreResolves (serve s e) e.request.remoteProcId := by
  have hcore := hs.2 e.request.remoteProcId
  have hkeep : ∀ j, j ≠ i → lookup ((serve s e).world.client e.request.remoteProcId j) =
      lookup (s.world.client e.request.remoteProcId j) := by
    intro j hj
    rw [h.table,update_of_ne hj]
  refine hcore.of_kept (fun j hj => hkeep j ?_) ?_
  · rintro rfl
    rw [h.table,update_self] at hj
    simp [ClientObj.free,ClientObj.zero] at hj
  · intro g hmem
    have hlive : (serve s e).live e.request.remoteProcId = booked s e := by simp [serve]
    rw [hlive,booked_detach hc hst] at hmem
    obtain ⟨hmem,hother⟩ := List.mem_filter.mp hmem
    refine ⟨hmem,hkeep g.slot fun hsi => ?_⟩
    have ht := (hcore.held hmem).2
    rw [hsi,(getClient_eq_some hg).2] at ht
    simp [ht] at hother

/-- A quiet request keeps every core's tokens. -/
theorem quiet_resolves (hs : TokenInv s) (h : QuietEffect s.world (serve s e).world)
    (hl : (serve s e).live = s.live) (core : Fin procs) : CoreResolves (serve s e) core := by
  have hkeep : ∀ j, lookup ((serve s e).world.client core j) =
      lookup (s.world.client core j) := by
    intro j
    rw [h.client core j]
    rfl
  exact (hs.2 core).of_kept (fun j _ => hkeep j) fun g hg => ⟨congrFun hl core ▸ hg,hkeep g.slot⟩

/-- A quiet request books no grant and ends none. -/
theorem quiet_live
    (ha : ∀ v ext, e.request.cmd.attachPort = some (v,ext) →
      ¬ s.world.hasFreeSlot e.request.remoteProcId ∧ (answer s.world e).status = ealloc)
    (hd : e.request.cmd = .detach →
      getClient s.world e.request.remoteProcId e.request.token = none ∧
        (answer s.world e).status = einvalidParams) :
    (serve s e).live = s.live := by
  have hbooked : booked s e = s.live e.request.remoteProcId := by
    unfold booked
    split
    · next hst =>
      obtain ⟨hna,hdet⟩ := quiet_success ha hd hst
      simp [hna,hdet]
    · rfl
  unfold serve
  rw [hbooked,update_eq_self]

/-- From tokens that name the clients, a step keeps them so exactly when
an attach that takes a slot stores a fresh token. -/
theorem serve_resolves_iff (hs : TokenInv s) :
    TokensResolve (serve s e) ↔ FreshToken s e := by
  rcases request_cases e.outcomes e.request hs.1 with
    ⟨v,ext,i,hc,hf,h⟩ | ⟨i,hc,hg,hst,h⟩ | ⟨h,ha,hd⟩
  · change AttachEffect _ _ _ _ _ _ (serve s e).world (answer s.world e) at h
    have hcore := attach_resolves_iff hs hc h
    constructor
    · intro hr v' ext' hc' _
      obtain ⟨rfl,rfl⟩ : v = v' ∧ ext = ext' := by simpa using hc.symm.trans hc'
      exact hcore.mp (hr e.request.remoteProcId)
    · intro hG core
      by_cases hne : core = e.request.remoteProcId
      · subst hne
        exact hcore.mpr (hG v ext hc hf)
      · exact (hs.2 core).of_untouched (h.others core hne) (by simp [serve,hne])
  · change DetachEffect _ _ _ _ (serve s e).world at h
    constructor
    · intro _ v ext ha
      simp [hc,Cmd.attachPort] at ha
    · intro _ core
      by_cases hne : core = e.request.remoteProcId
      · subst hne
        exact detach_resolves hs hc hg hst h
      · exact (hs.2 core).of_untouched (h.others core hne) (by simp [serve,hne])
  · change QuietEffect _ (serve s e).world at h
    constructor
    · intro _ v ext hc hf
      exact absurd hf (ha v ext hc).1
    · intro _ core
      exact quiet_resolves hs h (quiet_live ha hd) core

end Step

/-- Along every run of an initialised server, of any requests in any order
with any driver results, tokens are unique, every grant resolves to its
own slot and the reserved token resolves to none, in every state, exactly
when every attach that takes a slot stores a fresh token. -/
theorem tokens_resolve_iff (procs : ℕ) (csum : Bool) (cfg : List VirtPortCfg)
    (events : List (Event procs)) :
    Along serve TokensResolve (initGrants procs csum cfg) events ↔
      Guarded serve FreshToken (initGrants procs csum cfg) events := by
  apply along_iff_guarded (I := TokenInv)
  · exact fun s hs => hs.2
  · exact fun s e hs hG => ⟨ready_handle hs.1,(serve_resolves_iff hs).mpr hG⟩
  · exact fun s e hs => serve_resolves_iff hs
  · exact tokenInv_init csum cfg

/-- One client attaches a virtual port. -/
def attachPort25 (clientId : U8) : Event 1 :=
  ⟨plainOutcomes fun _ => 1518#32,⟨⟨0,Nat.one_pos⟩,100#32,clientId,0#32,0#32,.attach 25#32⟩⟩

/-- Two successful attaches of one port share a token, and it resolves to
the first client's slot only. -/
theorem tokens_not_unique_after_second_attach :
    ¬ Along serve TokensResolve (initGrants 1 false []) [attachPort25 2#8,attachPort25 3#8] := by
  intro h
  have hunique := (along_final h 0).unique 0 1 (by decide) (by decide) (by decide)
  revert hunique
  decide

end EthernetFirmware.ProxyServerTokens
