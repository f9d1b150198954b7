import EthernetFirmware.McastVepa
import EthernetFirmware.VepaReplication

/-!
# Delivery of shared multicast frames

The multicast filter and the replication of frames together, in builds with
VEPA. A request to the filter enters a port into the table or takes it out,
and the frames of a shared address are copied to the ports the table names.
While the requests keep filter and table in agreement, a frame reaches the
ports with an outstanding add of its address on its VLAN, and no others.
-/

namespace EthernetFirmware.MulticastDelivery

open Function BitMasks SlotTables RemoteConfig McastFilter GuardedRuns VepaMap McastVepa
  EthernetFrames VepaReplication

/-- A port waits for a frame: it has an outstanding add of the address on the
VLAN, and the frame is not its own. -/
def waits (s : Filter) (virtPortToMacAddr : Port → MacAddr) (f : Frame) (i : Port) : Bool :=
  (s.adds f.dest).any (fun e => decide (e.1 = f.vlanId) && decide (e.2.val.toNat = i.val)) &&
    !decide (f.src = virtPortToMacAddr i)

/-- A frame is delivered as the outstanding adds say. -/
structure Delivered (s : Filter) (v : VepaPorts) (f : Frame) (alloc : Bool)
    (link : Port → Bool) : Prop where
  /-- The copies are those for the waiting ports that have a private VLAN, in port order. -/
  copies : (handlePacketDuplicationRxPktFxn v f alloc link).2.copies =
    if alloc then
      ((List.finRange portCount).filter fun i =>
        waits s v.virtPortToMacAddr f i && !decide (v.privVlanCfg i = 0#16)).map (copyTo v f link)
    else []
  /-- When all waiting ports have one, the call succeeds exactly when there is a buffer and an
  outstanding add on the VLAN. -/
  status : (∀ i, waits s v.virtPortToMacAddr f i = true → v.privVlanCfg i ≠ 0#16) →
    ((handlePacketDuplicationRxPktFxn v f alloc link).2.status = sok ↔
      alloc = true ∧ ∃ p, (f.vlanId,p) ∈ s.adds f.dest)

/-- The table of the VEPA object names ports of the arrays. -/
def NamesPorts (o : McastObj) : Prop :=
  ∀ vepa, o.vepa = some vepa → PortsOnly vepa.remoteCoreVepaTable

/-- Replication works with the table of the VEPA object. -/
def ReadsTable (o : McastObj) (v : VepaPorts) : Prop :=
  ∃ vepa, o.vepa = some vepa ∧ v.remoteCoreVepaTable = vepa.remoteCoreVepaTable

/-- The table can be replicated from, and every frame of a shared address is
delivered, whatever is behind the ports. -/
structure Delivers (s : Filter) : Prop where
  /-- There is a table, and it names ports. -/
  table : (∃ vepa, s.obj.vepa = some vepa) ∧ NamesPorts s.obj
  /-- Frames of shared addresses are delivered. -/
  frames : ∀ v f alloc link i, ReadsTable s.obj v →
    getSharedMcastInfo s.obj f.dest = some i → Delivered s v f alloc link

section Frames

variable {s : Filter} {m : PortMap} {f : Frame} {v : VepaPorts} {mask : U32} {alloc : Bool}
  {link : Port → Bool} {i : Fin sharedMcastListLen}

/-- The ports registered for a frame are those with an outstanding add. -/
theorem isSet_iff_adds (hrep : Represents v.remoteCoreVepaTable m) (hl : LocalInv s m f.dest i)
    (hm : VepaTable.getVirtPortMask v.remoteCoreVepaTable f.dest f.vlanId = some mask) (n : ℕ) :
    isSet mask n = true ↔ ∃ p, (f.vlanId,p) ∈ s.adds f.dest ∧ p.val.toNat = n := by
  rw [← hl.ports,← hrep.members_of_getMask hm,mem_members]

/-- The frame's address and VLAN have an entry when there is an outstanding
add. -/
theorem known_iff_adds (hrep : Represents v.remoteCoreVepaTable m)
    (hl : LocalInv s m f.dest i) :
    VepaTable.Known v.remoteCoreVepaTable f.dest f.vlanId ↔
      ∃ p, (f.vlanId,p) ∈ s.adds f.dest := by
  rw [hrep.known_iff_nonempty]
  constructor
  · rintro ⟨n,hn⟩
    obtain ⟨p,hp,-⟩ := (hl.ports f.vlanId n).mp hn
    exact ⟨p,hp⟩
  · rintro ⟨p,hp⟩
    exact ⟨p.val.toNat,hl.port_iff.mpr hp⟩

/-- A frame goes to the ports that wait for it. -/
theorem wanted_eq_waits (hrep : Represents v.remoteCoreVepaTable m)
    (hl : LocalInv s m f.dest i)
    (hm : VepaTable.getVirtPortMask v.remoteCoreVepaTable f.dest f.vlanId = some mask)
    (n : Port) : wanted v mask f.src n = waits s v.virtPortToMacAddr f n := by
  unfold wanted waits
  congr 1
  rw [Bool.eq_iff_iff,isSet_iff_adds hrep hl hm,List.any_eq_true]
  simp only [Bool.and_eq_true,decide_eq_true_eq]
  constructor
  · rintro ⟨p,hp,hn⟩
    exact ⟨_,hp,rfl,hn⟩
  · rintro ⟨⟨u,p⟩,hp,rfl,hn⟩
    exact ⟨p,hp,hn⟩

/-- Without an outstanding add on the VLAN nobody waits. -/
theorem waits_of_none (hno : ¬ ∃ p, (f.vlanId,p) ∈ s.adds f.dest) (n : Port) :
    waits s v.virtPortToMacAddr f n = false := by
  rw [← Bool.not_eq_true]
  intro hw
  unfold waits at hw
  rw [Bool.and_eq_true,List.any_eq_true] at hw
  obtain ⟨⟨⟨u,p⟩,hp,hu⟩,-⟩ := hw
  rw [Bool.and_eq_true,decide_eq_true_eq] at hu
  exact hno ⟨p,hu.1 ▸ hp⟩

/-- A frame that cannot be replicated gets no copy, and the call fails. -/
theorem delivered_of_failed
    (hfail : ¬ VepaTable.Known v.remoteCoreVepaTable f.dest f.vlanId ∨ alloc = false)
    (hknown : VepaTable.Known v.remoteCoreVepaTable f.dest f.vlanId ↔
      ∃ p, (f.vlanId,p) ∈ s.adds f.dest) : Delivered s v f alloc link := by
  have hcopies : (handlePacketDuplicationRxPktFxn v f alloc link).2.copies = [] :=
    copies_eq_nil hfail
  have hstatus : (handlePacketDuplicationRxPktFxn v f alloc link).2.status = efail :=
    status_of_none hfail
  refine ⟨?_,fun _ => ?_⟩
  · rw [hcopies]
    rcases hfail with hk | ha
    · simp [waits_of_none (v := v) fun hp => hk (hknown.mpr hp)]
    · simp [ha]
  · rw [hstatus]
    refine iff_of_false efail_ne_sok fun h => ?_
    rcases hfail with hk | ha
    · exact hk (hknown.mpr h.2)
    · exact Bool.false_ne_true (ha.symm.trans h.1)

/-- In agreement, a frame of a shared address is delivered. -/
theorem delivered_of_agree (hrep : Represents v.remoteCoreVepaTable m)
    (hl : LocalInv s m f.dest i) : Delivered s v f alloc link := by
  have hknown := known_iff_adds hrep hl
  by_cases hk : VepaTable.Known v.remoteCoreVepaTable f.dest f.vlanId
  · cases alloc with
    | false => exact delivered_of_failed (Or.inr rfl) hknown
    | true =>
      obtain ⟨mask,hm⟩ := known_iff_mask.mp hk
      have hwanted := wanted_eq_waits hrep hl hm
      refine ⟨?_,fun hpriv => iff_of_true ?_ ⟨rfl,hknown.mp hk⟩⟩
      · have hcopies : (handlePacketDuplicationRxPktFxn v f true link).2.copies =
            ((List.finRange portCount).filter (served v f mask)).map (copyTo v f link) :=
          copies_eq hm
        have hserved : served v f mask = fun n =>
            waits s v.virtPortToMacAddr f n && !decide (v.privVlanCfg n = 0#16) := by
          funext n
          rw [served,hwanted]
        rw [hcopies,hserved,if_pos rfl]
      · refine status_of_private hk fun n hn => hpriv n ?_
        rw [← hwanted]
        exact (mem_targets_iff hm).mp hn
  · exact delivered_of_failed (Or.inl hk) hknown

end Frames

section Runs

variable {o : McastObj} {w : VepaTable.VepaObj} {s : Filter} {m : PortMap} {p : PortId}
  {a : MacAddr} {u : U16} {x : AddOutcomes} {y : DelOutcomes}

theorem namesPorts_of_vepa {o' : McastObj} (h : NamesPorts o) (hv : o'.vepa = o.vepa) :
    NamesPorts o' := by
  unfold NamesPorts at h ⊢
  rw [hv]
  exact h

/-- A call on the table of the VEPA object keeps it to the ports. -/
theorem namesPorts_of_call {o' : McastObj} (h : NamesPorts o) (hw : o.vepa = some w) (c : Call)
    (hv : o'.vepa = some (withTable w (onTable w.remoteCoreVepaTable c).2)) : NamesPorts o' := by
  intro vepa hvepa
  obtain rfl := Option.some.inj (hv.symm.trans hvepa)
  exact (h w hw).onTable c

/-- An add of an address keeps the table to the ports. -/
theorem namesPorts_add (h : NamesPorts o) (hw : o.vepa = some w) :
    NamesPorts (filterAddMac o p a u x).2 := by
  cases hr : isRsvdMcast o a u with
  | true =>
    rw [filterAddMac_reserved hr]
    exact h
  | false =>
    cases hi : getSharedMcastInfo o a with
    | none => exact namesPorts_of_vepa h (filterAddMac_unshared hi).1
    | some i =>
      by_cases hg : AddGoes o i x
      · rw [filterAddMac_goes_vepa hw hr hi hg]
        exact namesPorts_of_call h hw (.add a u p) rfl
      · rw [(filterAddMac_fails hr hi hg).2]
        exact namesPorts_of_vepa h rfl

/-- So does a delete. -/
theorem namesPorts_del (h : NamesPorts o) (hw : o.vepa = some w) :
    NamesPorts (filterDelMac o p a u y).2 := by
  cases hr : isRsvdMcast o a u with
  | true =>
    rw [filterDelMac_reserved hr]
    exact h
  | false =>
    cases hi : getSharedMcastInfo o a with
    | none => exact namesPorts_of_vepa h (filterDelMac_unshared hi).1
    | some i =>
      rcases filterDelMac_vepa (p := p) (y := y) hw hr hi with
        ⟨-,heq⟩ | ⟨-,-,-,heq⟩ | ⟨-,-,heq⟩
      · rw [heq]
        exact h
      · rw [heq]
        exact namesPorts_of_call h hw (.del a u p) rfl
      · rw [heq]
        exact namesPorts_of_call h hw (.del a u p) rfl

theorem namesPorts_step (h : NamesPorts s.obj) (hw : s.obj.vepa = some w) (e : Event) :
    NamesPorts (step s e).obj := by
  cases e with
  | add p a u x => exact namesPorts_add h hw
  | del p a u y => exact namesPorts_del h hw

/-- In agreement, with a table that names ports, every frame is delivered. -/
theorem delivers_of_agree (h : AgreeInv s m) (hp : NamesPorts s.obj) : Delivers s := by
  obtain ⟨w,hw,hrep⟩ := h.content
  refine ⟨⟨⟨w,hw⟩,hp⟩,?_⟩
  rintro v f alloc link i ⟨vepa,hvepa,ht⟩ hi
  obtain rfl := Option.some.inj (hw.symm.trans hvepa)
  rw [← ht] at hrep
  exact delivered_of_agree hrep (h.locals f.dest i hi)

/-- In every run of filter requests that keep filter and VEPA table in
agreement, in a build with VEPA whose table starts without shared addresses
and whose ALE starts clear of them: in every state, every frame of a shared
address, when a buffer is had, is copied to exactly the ports that wait for it and
have a private VLAN, once each. -/
theorem shared_frames_delivered (ale : MacAddr → Option U32) (vepa : VepaTable.VepaObj)
    (shared : List McastCfg) (rsvd : List RsvdMcast) (switchPortMask macOnlyPortMask : U32)
    (hports : PortsOnly vepa.remoteCoreVepaTable)
    (hrep : Represents vepa.remoteCoreVepaTable m)
    (hfree : ∀ c ∈ shared, ∀ u, (c.macAddr,u) ∉ m)
    (hclear : McastOwnership.StartsClear ale shared) (events : List Event)
    (hkeep : Guarded step KeepsAgreement
      (startUp ale vepa shared rsvd switchPortMask macOnlyPortMask) events) :
    Along step Delivers (startUp ale vepa shared rsvd switchPortMask macOnlyPortMask) events := by
  have hstart : NamesPorts
      (startUp ale vepa shared rsvd switchPortMask macOnlyPortMask).obj := by
    intro w hw
    have hvepa : (startUp ale vepa shared rsvd switchPortMask macOnlyPortMask).obj.vepa =
        some vepa := init_vepa _ shared rsvd switchPortMask macOnlyPortMask
    obtain rfl := Option.some.inj (hvepa.symm.trans hw)
    exact hports
  have hinv : Along step (fun s => (∃ m, AgreeInv s m) ∧ NamesPorts s.obj)
      (startUp ale vepa shared rsvd switchPortMask macOnlyPortMask) events := by
    refine along_of_guarded ?_ ⟨⟨m,agreeInv_startUp hrep hfree hclear⟩,hstart⟩ hkeep
    rintro s e ⟨⟨m,h⟩,hp⟩ hk
    obtain ⟨w,hw,-⟩ := h.content
    exact ⟨step_agreeInv h hk,namesPorts_step hp hw e⟩
  exact along_mono (fun s h => delivers_of_agree h.1.choose_spec h.2) hinv

/-- An add of a shared address keeps the agreement when the count, the table and
the driver let it. -/
theorem keeps_add {i : Fin sharedMcastListLen} (hi : getSharedMcastInfo s.obj a = some i)
    (hcount : (s.obj.sharedMcast i).refCnt ≠ 0xFFFFFFFF#32)
    (hvepa : (s.obj.vepa.all fun w => decide (VepaTable.HasRoom w.remoteCoreVepaTable) &&
      decide (VepaTable.addMcastPolicer w x.setPolicer = sok)) = true) :
    KeepsAgreement s (.add p a u x) := by
  intro j hj _
  obtain rfl := Option.some.inj (hi.symm.trans hj)
  have hroom : ∀ w, s.obj.vepa = some w → VepaTable.HasRoom w.remoteCoreVepaTable ∧
      VepaTable.addMcastPolicer w x.setPolicer = sok := by
    intro w hw
    rw [hw,Option.all_some,Bool.and_eq_true,decide_eq_true_eq,decide_eq_true_eq] at hvepa
    exact hvepa
  exact ⟨fun _ => ⟨hcount,Or.inr fun w hw => (hroom w hw).1⟩,fun _ _ w hw => (hroom w hw).2⟩

/-- So does a delete of the port's only add. -/
theorem keeps_del {i : Fin sharedMcastListLen} (hi : getSharedMcastInfo s.obj a = some i)
    (hone : (s.adds a).count (u,p) = 1) (hgoes : DelGoes s.obj i y) :
    KeepsAgreement s (.del p a u y) := by
  intro j hj _
  obtain rfl := Option.some.inj (hi.symm.trans hj)
  refine ⟨fun _ => ⟨hone,hgoes⟩,fun hno => ?_⟩
  rw [List.count_eq_zero.mpr hno] at hone
  exact absurd hone Nat.zero_ne_one

/-- Two ports add the address, one of them on two VLANs, and take their adds
back in another order. -/
def twoPorts : List Event :=
  [addOnce,.add macPort McastOwnership.groupAddr 0#16 ⟨sok,sok,sok⟩,
    .add macPort McastOwnership.groupAddr 7#16 ⟨sok,sok,sok⟩,delOnce,
    .del macPort McastOwnership.groupAddr 7#16 ⟨sok,sok⟩,addOnce]

theorem shared_frames_delivered_two_ports : Along step Delivers oneShared twoPorts := by
  have hdel : ∀ {o : McastObj} {i : Fin sharedMcastListLen},
      (o.sharedMcast i).refCnt ≠ 0#32 → DelGoes o i ⟨sok,sok⟩ :=
    fun hcount => ⟨hcount,fun _ => ⟨fun _ => rfl,rfl⟩⟩
  refine shared_frames_delivered (m := ∅) (fun _ => none) vepaStart oneAddr [] 0b1110#32 0b0001#32
    portsOnly_flushTable (represents_init _) (fun _ _ _ => Finmap.notMem_empty)
    (fun _ _ _ => rfl) twoPorts ⟨?_,?_,?_,?_,?_,?_,trivial⟩
  · exact keeps_add (i := ⟨0,by decide⟩) (by decide +kernel) (by decide +kernel) (by decide +kernel)
  · exact keeps_add (i := ⟨0,by decide⟩) (by decide +kernel) (by decide +kernel) (by decide +kernel)
  · exact keeps_add (i := ⟨0,by decide⟩) (by decide +kernel) (by decide +kernel) (by decide +kernel)
  · exact keeps_del (i := ⟨0,by decide⟩) (by decide +kernel) (by decide +kernel)
      (hdel (by decide +kernel))
  · exact keeps_del (i := ⟨0,by decide⟩) (by decide +kernel) (by decide +kernel)
      (hdel (by decide +kernel))
  · exact keeps_add (i := ⟨0,by decide⟩) (by decide +kernel) (by decide +kernel) (by decide +kernel)

end Runs

end EthernetFirmware.MulticastDelivery
