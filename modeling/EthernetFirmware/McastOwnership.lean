import Mathlib.Data.List.Basic
import EthernetFirmware.GuardedRuns
import EthernetFirmware.McastFilter

/-!
# Ownership of shared multicast addresses

Beside the filter's tables the state records, for each address, which port
made each successful add that no successful delete of the same port has
matched. The books of a shared address agree when its reference count is
their number and the ALE has the address while there is one. The filter
keeps the count but not the owners: it agrees with the books exactly while
no port deletes what it has not added.
-/

namespace EthernetFirmware.McastOwnership

open Function SlotTables RemoteConfig McastFilter GuardedRuns

/-- The filter with the books of outstanding adds. -/
structure Filter where
  /-- Tables and hardware. -/
  obj : McastObj
  /-- Ports of the adds of an address that are still outstanding. -/
  adds : MacAddr → List PortId

/-- Requests to the filter and other use of the VEPA table. -/
inductive Event where
  /-- A port adds an address to its filter. -/
  | add (virtPort : PortId) (macAddr : MacAddr) (vlanId : U16) (relFlow : Status × U32)
      (isInVlan : Bool) (x : AddOutcomes)
  /-- A port deletes an address from its filter. -/
  | del (virtPort : PortId) (macAddr : MacAddr) (vlanId : U16) (isInVlan : Bool)
      (y : DelOutcomes)
  /-- Another user of the VEPA object leaves it with this content. -/
  | vepaUse (vepa : VepaTable.VepaObj)

/-- The books after an add. -/
def bookAdd (s : Filter) (virtPort : PortId) (macAddr : MacAddr) (r : Status × McastObj) :
    Filter where
  obj := r.2
  adds := if r.1 = sok then update s.adds macAddr (virtPort :: s.adds macAddr) else s.adds

/-- The books after a delete. -/
def bookDel (s : Filter) (virtPort : PortId) (macAddr : MacAddr) (r : Status × McastObj) :
    Filter where
  obj := r.2
  adds := if r.1 = sok then update s.adds macAddr ((s.adds macAddr).erase virtPort) else s.adds

/-- State after an event. -/
def step (s : Filter) : Event → Filter
  | .add virtPort macAddr vlanId relFlow isInVlan x => bookAdd s virtPort macAddr
    (filterAddMacHandlerCb s.obj virtPort macAddr vlanId relFlow isInVlan x)
  | .del virtPort macAddr vlanId isInVlan y => bookDel s virtPort macAddr
    (filterDelMacHandlerCb s.obj virtPort macAddr vlanId isInVlan y)
  | .vepaUse vepa => { s with obj := { s.obj with vepa := s.obj.vepa.map fun _ => vepa } }

/-- An initialised filter with empty books. -/
def startUp (ale : MacAddr → Option U32) (vepa : Option VepaTable.VepaObj)
    (shared : List McastCfg) (rsvd : List RsvdMcast) (switchPortMask macOnlyPortMask : U32) :
    Filter where
  obj := (init (zeroed ale vepa) shared rsvd switchPortMask macOnlyPortMask).2
  adds := fun _ => []

/-- The books of a shared address agree with its entry. -/
structure SharedOk (s : Filter) (a : MacAddr) (i : Fin sharedMcastListLen) : Prop where
  /-- The reference count is the number of outstanding adds. -/
  refs : (s.obj.sharedMcast i).refCnt.toNat = (s.adds a).length
  /-- The ALE has the address exactly while there is one. -/
  programmed : s.obj.ale a ≠ none ↔ s.adds a ≠ []

/-- The books of every shared address agree. -/
def OwnershipOk (s : Filter) : Prop :=
  ∀ a i, getSharedMcastInfo s.obj a = some i → SharedOk s a i

/-- A delete of a shared address by a port without an outstanding add fails
and changes neither the reference count nor the ALE entry. -/
def DeletesOwn (s : Filter) (e : Event) : Prop :=
  ∀ p a vlanId isInVlan y i, e = .del p a vlanId isInVlan y →
    getSharedMcastInfo s.obj a = some i → p ∉ s.adds a →
    (filterDelMacHandlerCb s.obj p a vlanId isInVlan y).1 ≠ sok ∧
      ((step s e).obj.sharedMcast i).refCnt = (s.obj.sharedMcast i).refCnt ∧
      (step s e).obj.ale a = s.obj.ale a

/-- When an event keeps the books right. -/
def KeepsOwnership (s : Filter) : Event → Prop
  | .add _ a vlanId relFlow isInVlan x => ∀ i,
    ReachesShared s.obj (requestVlan (flowStatus relFlow) a vlanId isInVlan) a i →
      (s.obj.sharedMcast i).refCnt ≠ 0xFFFFFFFF#32 ∧
      ((s.obj.sharedMcast i).refCnt = 0#32 → x.addMcast = sok →
        ∀ vepa, s.obj.vepa = some vepa → VepaTable.addMcastPolicer vepa x.setPolicer = sok)
  | .del p a vlanId isInVlan y => ∀ i, ReachesShared s.obj (requestVlan sok a vlanId isInVlan) a i →
      p ∈ s.adds a ∨
      ¬ (VepaKnown s.obj a (requestVlan sok a vlanId isInVlan).2 ∧ DelGoes s.obj i y)
  | .vepaUse _ => True

variable {s s' : Filter} {a b : MacAddr} {i j : Fin sharedMcastListLen} {p : PortId} {v : U16}
  {r : Status × McastObj}

/-- The shared addresses that initialisation accepts are not in the ALE
before it. -/
def StartsClear (ale : MacAddr → Option U32) (shared : List McastCfg) : Prop :=
  AcceptedShared shared → ∀ c ∈ shared, ale c.macAddr = none

/-- What an event about one address leaves of the others. -/
structure Elsewhere (s s' : Filter) (a : MacAddr) : Prop where
  /-- The look-up of every address is the same. -/
  lookup : ∀ b, getSharedMcastInfo s'.obj b = getSharedMcastInfo s.obj b
  /-- So are the entries of the other addresses. -/
  entries : ∀ b j, b ≠ a → getSharedMcastInfo s.obj b = some j →
    s'.obj.sharedMcast j = s.obj.sharedMcast j
  /-- And the ALE. -/
  ale : ∀ b, b ≠ a → s'.obj.ale b = s.obj.ale b
  /-- And the books. -/
  adds : ∀ b, b ≠ a → s'.adds b = s.adds b

theorem SharedOk.of_eq (h : SharedOk s a i)
    (hr : (s'.obj.sharedMcast i).refCnt = (s.obj.sharedMcast i).refCnt)
    (hale : s'.obj.ale a = s.obj.ale a) (hadds : s'.adds a = s.adds a) : SharedOk s' a i := by
  refine ⟨?_,?_⟩
  · rw [hr,hadds]
    exact h.refs
  · rw [hale,hadds]
    exact h.programmed

/-- Only the address an event is about needs a look. -/
theorem ownershipOk_iff_of_elsewhere (hs : OwnershipOk s) (he : Elsewhere s s' a) :
    OwnershipOk s' ↔ ∀ i, getSharedMcastInfo s.obj a = some i → SharedOk s' a i := by
  constructor
  · intro h i hi
    exact h a i (by rw [he.lookup]; exact hi)
  · intro h b j hj
    rw [he.lookup] at hj
    by_cases hb : b = a
    · subst hb
      exact h j hj
    · exact (hs b j hj).of_eq (congrArg SharedMcastInfo.refCnt (he.entries b j hb hj)) (he.ale b hb)
        (he.adds b hb)

/-- An event that leaves tables, ALE and books alone keeps them right. -/
theorem ownershipOk_of_quiet (hs : OwnershipOk s) (ht : s'.obj.sharedMcast = s.obj.sharedMcast)
    (hl : s'.obj.sharedLen = s.obj.sharedLen) (hale : s'.obj.ale = s.obj.ale)
    (hadds : s'.adds = s.adds) : OwnershipOk s' := by
  intro b j hj
  rw [getSharedMcastInfo_congr hl (fun i => by rw [ht])] at hj
  exact (hs b j hj).of_eq (by rw [ht]) (by rw [hale]) (by rw [hadds])

/-- An address that is not shared has no books to keep. -/
theorem ownershipOk_of_frame (hs : OwnershipOk s) (hn : getSharedMcastInfo s.obj a = none)
    (hf : SharedFrame s.obj s'.obj a) (hadds : ∀ b, b ≠ a → s'.adds b = s.adds b) :
    OwnershipOk s' := by
  have he : Elsewhere s s' a :=
    ⟨fun b => getSharedMcastInfo_congr hf.len fun i => by rw [hf.table],
      fun b j _ _ => by rw [hf.table],hf.ale,hadds⟩
  refine (ownershipOk_iff_of_elsewhere hs he).mpr fun i hi => ?_
  exact absurd (hn.symm.trans hi) (by simp)

/-- A conditional update at one address leaves the others alone. -/
theorem ite_update_of_ne {β : Type*} {f : MacAddr → β} {x : β} {c : Prop} [Decidable c]
    (h : b ≠ a) : (if c then update f a x else f) b = f b := by
  split
  · exact update_of_ne h ..
  · rfl

/-- Setting the count of an entry leaves the other addresses alone. -/
theorem elsewhere_of_setRefCnt {n : U32} {adds : MacAddr → List PortId} {ale : MacAddr → Option U32}
    {vepa : Option VepaTable.VepaObj} (hi : getSharedMcastInfo s.obj a = some i)
    (hale : ∀ b, b ≠ a → ale b = s.obj.ale b) (hadds : ∀ b, b ≠ a → adds b = s.adds b) :
    Elsewhere s ⟨{ setRefCnt s.obj i n with ale := ale, vepa := vepa },adds⟩ a := by
  refine ⟨fun b => ?_,fun b j hb hj => ?_,hale,hadds⟩
  · refine getSharedMcastInfo_congr rfl fun j => ?_
    by_cases hj : j = i
    · subst hj
      simp [setRefCnt]
    · simp [setRefCnt,hj]
  · exact update_of_ne (ne_of_getSharedMcastInfo hi hj hb) ..

/-- A failed request that changes the VEPA table at most is quiet. -/
theorem ownershipOk_of_failed {adds : MacAddr → List PortId} {obj : McastObj}
    {vepa : Option VepaTable.VepaObj} (hs : OwnershipOk s)
    (hobj : obj = { s.obj with vepa := vepa }) (hadds : adds = s.adds) :
    OwnershipOk ⟨obj,adds⟩ := by
  subst hobj
  exact ownershipOk_of_quiet hs rfl rfl rfl hadds

/-- One reference more keeps the count right unless it wraps around. -/
theorem sharedOk_of_add {vepa : Option VepaTable.VepaObj} (h : SharedOk s a i) :
    SharedOk ⟨{ setRefCnt s.obj i ((s.obj.sharedMcast i).refCnt + 1#32) with
        ale := if (s.obj.sharedMcast i).refCnt = 0#32 then
            update s.obj.ale a (some (s.obj.sharedMcast i).portMask)
          else s.obj.ale
        vepa := vepa },update s.adds a (p :: s.adds a)⟩ a i ↔
      (s.obj.sharedMcast i).refCnt ≠ 0xFFFFFFFF#32 := by
  have hcount : (setRefCnt s.obj i ((s.obj.sharedMcast i).refCnt + 1#32)).sharedMcast i =
      { s.obj.sharedMcast i with refCnt := (s.obj.sharedMcast i).refCnt + 1#32 } := update_self ..
  have hrefs := h.refs
  rw [← toNat_succ_iff,hrefs]
  constructor
  · intro hok
    have hnew := hok.refs
    dsimp only at hnew
    rw [hcount,update_self] at hnew
    exact hnew
  · intro hsucc
    refine ⟨?_,?_⟩
    · dsimp only
      rw [hcount,update_self]
      exact hsucc
    · dsimp only
      rw [update_self]
      refine iff_of_true ?_ (List.cons_ne_nil p _)
      by_cases hz : (s.obj.sharedMcast i).refCnt = 0#32
      · rw [if_pos hz,update_self]
        simp
      · rw [if_neg hz]
        refine h.programmed.mpr fun hnil => hz ?_
        rw [hnil] at hrefs
        exact BitVec.eq_of_toNat_eq hrefs

/-- The books of an address right after a step agree when those of its own
entry do. -/
theorem ownershipOk_iff_sharedOk (hs : OwnershipOk s) (he : Elsewhere s s' a)
    (hi : getSharedMcastInfo s.obj a = some i) : OwnershipOk s' ↔ SharedOk s' a i := by
  rw [ownershipOk_iff_of_elsewhere hs he]
  simp [hi]

/-- An add of a shared address that goes through counts one reference. -/
theorem bookAdd_goes_ownershipOk_iff {x : AddOutcomes} (hs : OwnershipOk s)
    (hr : isRsvdMcast s.obj a v = false) (hi : getSharedMcastInfo s.obj a = some i)
    (hg : AddGoes s.obj i x) :
    OwnershipOk (bookAdd s p a (filterAddMac s.obj p a v x)) ↔
      (s.obj.sharedMcast i).refCnt ≠ 0xFFFFFFFF#32 := by
  obtain ⟨vepa,heq⟩ := filterAddMac_goes (p := p) hr hi hg
  have hbook : bookAdd s p a (filterAddMac s.obj p a v x) =
      ⟨{ setRefCnt s.obj i ((s.obj.sharedMcast i).refCnt + 1#32) with
        ale := if (s.obj.sharedMcast i).refCnt = 0#32 then
            update s.obj.ale a (some (s.obj.sharedMcast i).portMask)
          else s.obj.ale
        vepa := vepa },update s.adds a (p :: s.adds a)⟩ := by
    rw [heq]
    rfl
  rw [hbook,ownershipOk_iff_sharedOk hs (elsewhere_of_setRefCnt hi ?_ ?_) hi,
    sharedOk_of_add (hs a i hi)]
  · exact fun b hb => ite_update_of_ne hb
  · exact fun b hb => update_of_ne hb ..

/-- An add of a shared address that fails keeps the books right unless it
leaves the address in the ALE. -/
theorem bookAdd_fails_ownershipOk_iff {x : AddOutcomes} (hs : OwnershipOk s)
    (hr : isRsvdMcast s.obj a v = false) (hi : getSharedMcastInfo s.obj a = some i)
    (hz : (s.obj.sharedMcast i).refCnt = 0#32) (hg : ¬ AddGoes s.obj i x) :
    OwnershipOk (bookAdd s p a (filterAddMac s.obj p a v x)) ↔ x.addMcast ≠ sok := by
  obtain ⟨hst,hobj⟩ := filterAddMac_fails (p := p) hr hi hg
  have hnil : s.adds a = [] := by
    have hrefs := (hs a i hi).refs
    rw [hz] at hrefs
    exact List.length_eq_zero_iff.mp hrefs.symm
  by_cases hadd : x.addMcast = sok
  · rw [if_pos hadd] at hobj
    refine iff_of_false (fun hok => ?_) (not_not.mpr hadd)
    have hfound : getSharedMcastInfo (bookAdd s p a (filterAddMac s.obj p a v x)).obj a =
        some i := by
      change getSharedMcastInfo (filterAddMac s.obj p a v x).2 a = some i
      rw [hobj]
      exact hi
    have hprog := (hok a i hfound).programmed
    change (filterAddMac s.obj p a v x).2.ale a ≠ none ↔ (if _ then _ else _ : MacAddr → _) a ≠ []
      at hprog
    rw [hobj,if_neg hst,hnil] at hprog
    simp at hprog
  · rw [if_neg hadd] at hobj
    exact iff_of_true (ownershipOk_of_failed hs hobj (if_neg hst)) hadd

/-- An add of a shared address that reaches its entry. -/
theorem bookAdd_ownershipOk_iff {x : AddOutcomes} (hs : OwnershipOk s)
    (hr : isRsvdMcast s.obj a v = false) (hi : getSharedMcastInfo s.obj a = some i) :
    OwnershipOk (bookAdd s p a (filterAddMac s.obj p a v x)) ↔
      (s.obj.sharedMcast i).refCnt ≠ 0xFFFFFFFF#32 ∧
      ((s.obj.sharedMcast i).refCnt = 0#32 → x.addMcast = sok →
        ∀ vepa, s.obj.vepa = some vepa → VepaTable.addMcastPolicer vepa x.setPolicer = sok) := by
  by_cases hg : AddGoes s.obj i x
  · rw [bookAdd_goes_ownershipOk_iff hs hr hi hg]
    exact (and_iff_left fun hz _ => (hg hz).2).symm
  · obtain ⟨hz,hfail⟩ := Classical.not_imp.mp hg
    rw [bookAdd_fails_ownershipOk_iff hs hr hi hz hg]
    have hmax : (s.obj.sharedMcast i).refCnt ≠ 0xFFFFFFFF#32 := by
      rw [hz]
      decide
    constructor
    · exact fun hadd => ⟨hmax,fun _ hc => absurd hc hadd⟩
    · exact fun h hadd => hfail ⟨hadd,h.2 hz hadd⟩

/-- From right books, an add keeps them right exactly under its condition. -/
theorem add_ownershipOk_iff {vlanId : U16} {relFlow : Status × U32} {isInVlan : Bool}
    {x : AddOutcomes} (hs : OwnershipOk s) :
    OwnershipOk (step s (.add p a vlanId relFlow isInVlan x)) ↔
      KeepsOwnership s (.add p a vlanId relFlow isInVlan x) := by
  unfold step KeepsOwnership filterAddMacHandlerCb
  dsimp only
  generalize requestVlan (flowStatus relFlow) a vlanId isInVlan = req
  by_cases hadm : req.1 = sok
  · rw [if_pos hadm]
    cases hr : isRsvdMcast s.obj a req.2 with
    | true =>
      rw [filterAddMac_reserved hr]
      refine iff_of_true (ownershipOk_of_failed hs rfl (if_neg ebadArgs_ne_sok)) fun i hi => ?_
      exact absurd (hr.symm.trans hi.notRsvd) (by decide)
    | false =>
      cases hi : getSharedMcastInfo s.obj a with
      | none =>
        refine iff_of_true ?_ fun i hreach => absurd (hi.symm.trans hreach.found) (by simp)
        exact ownershipOk_of_frame hs hi (filterAddMac_frame hi) fun b hb =>
          ite_update_of_ne hb
      | some i =>
        rw [bookAdd_ownershipOk_iff hs hr hi]
        constructor
        · intro h j hreach
          obtain rfl : i = j := Option.some.inj (hi.symm.trans hreach.found)
          exact h
        · exact fun h => h i ⟨hadm,hr,hi⟩
  · rw [if_neg hadm]
    exact iff_of_true (ownershipOk_of_failed hs rfl (if_neg hadm))
      fun i hreach => absurd hreach.admitted hadm

/-- One reference less by a port with an outstanding add keeps the books
right. -/
theorem sharedOk_of_del {vepa : Option VepaTable.VepaObj} (h : SharedOk s a i)
    (hnz : (s.obj.sharedMcast i).refCnt ≠ 0#32) (hp : p ∈ s.adds a) :
    SharedOk ⟨{ setRefCnt s.obj i ((s.obj.sharedMcast i).refCnt - 1#32) with
        ale := if (s.obj.sharedMcast i).refCnt = 1#32 then update s.obj.ale a none
          else s.obj.ale
        vepa := vepa },update s.adds a ((s.adds a).erase p)⟩ a i := by
  have hcount : (setRefCnt s.obj i ((s.obj.sharedMcast i).refCnt - 1#32)).sharedMcast i =
      { s.obj.sharedMcast i with refCnt := (s.obj.sharedMcast i).refCnt - 1#32 } := update_self ..
  have hrefs := h.refs
  have hlen : ((s.adds a).erase p).length = (s.adds a).length - 1 :=
    List.length_erase_of_mem hp
  refine ⟨?_,?_⟩
  · dsimp only
    rw [hcount,update_self,hlen,← hrefs]
    exact toNat_pred hnz
  · dsimp only
    rw [update_self]
    by_cases h1 : (s.obj.sharedMcast i).refCnt = 1#32
    · rw [if_pos h1,update_self]
      refine iff_of_false (fun hc => hc rfl) fun hc => hc ?_
      apply List.length_eq_zero_iff.mp
      rw [hlen,← hrefs,h1]
      rfl
    · rw [if_neg h1]
      have hne0 : (s.obj.sharedMcast i).refCnt.toNat ≠ 0 :=
        fun hc => hnz (BitVec.eq_of_toNat_eq hc)
      have hne1 : (s.obj.sharedMcast i).refCnt.toNat ≠ 1 :=
        fun hc => h1 (BitVec.eq_of_toNat_eq hc)
      refine iff_of_true (h.programmed.mpr (List.ne_nil_of_mem hp)) fun hc => ?_
      have hzero := congrArg List.length hc
      rw [hlen,List.length_nil] at hzero
      omega

theorem deletesOwn_del_iff {vlanId : U16} {isInVlan : Bool} {y : DelOutcomes} :
    DeletesOwn s (.del p a vlanId isInVlan y) ↔
      ∀ i, getSharedMcastInfo s.obj a = some i → p ∉ s.adds a →
        (filterDelMacHandlerCb s.obj p a vlanId isInVlan y).1 ≠ sok ∧
          ((filterDelMacHandlerCb s.obj p a vlanId isInVlan y).2.sharedMcast i).refCnt =
            (s.obj.sharedMcast i).refCnt ∧
          (filterDelMacHandlerCb s.obj p a vlanId isInVlan y).2.ale a = s.obj.ale a := by
  constructor
  · intro h i hi hp
    exact h p a vlanId isInVlan y i rfl hi hp
  · rintro h p' a' vlanId' isInVlan' y' i heq hi hp
    obtain ⟨rfl,rfl,rfl,rfl,rfl⟩ := Event.del.inj heq
    exact h i hi hp

/-- A delete of a shared address that goes through keeps the books right
when its port has an outstanding add. -/
theorem bookDel_goes_ownershipOk {y : DelOutcomes} (hs : OwnershipOk s)
    (hr : isRsvdMcast s.obj a v = false) (hi : getSharedMcastInfo s.obj a = some i)
    (hknown : VepaKnown s.obj a v) (hg : DelGoes s.obj i y) (hp : p ∈ s.adds a) :
    OwnershipOk (bookDel s p a (filterDelMac s.obj p a v y)) := by
  obtain ⟨vepa,heq⟩ := filterDelMac_goes (p := p) hr hi hknown hg
  have hbook : bookDel s p a (filterDelMac s.obj p a v y) =
      ⟨{ setRefCnt s.obj i ((s.obj.sharedMcast i).refCnt - 1#32) with
        ale := if (s.obj.sharedMcast i).refCnt = 1#32 then update s.obj.ale a none
          else s.obj.ale
        vepa := vepa },update s.adds a ((s.adds a).erase p)⟩ := by
    rw [heq]
    rfl
  rw [hbook,ownershipOk_iff_sharedOk hs (elsewhere_of_setRefCnt hi ?_ ?_) hi]
  · exact sharedOk_of_del (hs a i hi) hg.1 hp
  · exact fun b hb => ite_update_of_ne hb
  · exact fun b hb => update_of_ne hb ..

/-- A delete of a shared address that reaches its entry. -/
theorem bookDel_ownershipOk_iff {y : DelOutcomes} (hs : OwnershipOk s)
    (hr : isRsvdMcast s.obj a v = false) (hi : getSharedMcastInfo s.obj a = some i) :
    OwnershipOk (bookDel s p a (filterDelMac s.obj p a v y)) ∧
        (p ∉ s.adds a → (filterDelMac s.obj p a v y).1 ≠ sok ∧
          ((filterDelMac s.obj p a v y).2.sharedMcast i).refCnt =
            (s.obj.sharedMcast i).refCnt ∧
          (filterDelMac s.obj p a v y).2.ale a = s.obj.ale a) ↔
      p ∈ s.adds a ∨ ¬ (VepaKnown s.obj a v ∧ DelGoes s.obj i y) := by
  by_cases hg : VepaKnown s.obj a v ∧ DelGoes s.obj i y
  · by_cases hp : p ∈ s.adds a
    · exact iff_of_true ⟨bookDel_goes_ownershipOk hs hr hi hg.1 hg.2 hp,fun hno => absurd hp hno⟩
        (Or.inl hp)
    · obtain ⟨vepa,heq⟩ := filterDelMac_goes (p := p) hr hi hg.1 hg.2
      refine iff_of_false (fun h => (h.2 hp).1 (by rw [heq])) fun h => ?_
      rcases h with h | h
      · exact hp h
      · exact h hg
  · obtain ⟨hst,vepa,hobj⟩ := filterDelMac_fails (p := p) hr hi hg
    refine iff_of_true ⟨ownershipOk_of_failed hs hobj (if_neg hst),fun _ => ?_⟩ (Or.inr hg)
    rw [hobj]
    exact ⟨hst,rfl,rfl⟩

/-- From right books, a delete keeps them right and takes nobody else's add
exactly under its condition. -/
theorem del_ownershipOk_iff {vlanId : U16} {isInVlan : Bool} {y : DelOutcomes}
    (hs : OwnershipOk s) :
    OwnershipOk (step s (.del p a vlanId isInVlan y)) ∧
        DeletesOwn s (.del p a vlanId isInVlan y) ↔
      KeepsOwnership s (.del p a vlanId isInVlan y) := by
  rw [deletesOwn_del_iff]
  unfold step KeepsOwnership filterDelMacHandlerCb
  dsimp only
  generalize requestVlan sok a vlanId isInVlan = req
  by_cases hadm : req.1 = sok
  · rw [if_pos hadm]
    cases hr : isRsvdMcast s.obj a req.2 with
    | true =>
      rw [filterDelMac_reserved hr]
      refine iff_of_true ⟨ownershipOk_of_failed hs rfl (if_neg ebadArgs_ne_sok),fun i _ _ =>
        ⟨ebadArgs_ne_sok,rfl,rfl⟩⟩ fun i hi => ?_
      exact absurd (hr.symm.trans hi.notRsvd) (by decide)
    | false =>
      cases hi : getSharedMcastInfo s.obj a with
      | none =>
        refine iff_of_true ⟨?_,fun i hc => absurd hc (by simp)⟩
          fun i hreach => absurd (hi.symm.trans hreach.found) (by simp)
        exact ownershipOk_of_frame hs hi (filterDelMac_frame hi) fun b hb =>
          ite_update_of_ne hb
      | some i =>
        have hiff := bookDel_ownershipOk_iff (p := p) (y := y) hs hr hi
        constructor
        · rintro ⟨hok,hown⟩ j hreach
          obtain rfl : i = j := Option.some.inj (hi.symm.trans hreach.found)
          exact hiff.mp ⟨hok,hown i rfl⟩
        · intro h
          obtain ⟨hok,hown⟩ := hiff.mpr (h i ⟨hadm,hr,hi⟩)
          exact ⟨hok,fun j hj => Option.some.inj hj ▸ hown⟩
  · rw [if_neg hadm]
    exact iff_of_true ⟨ownershipOk_of_failed hs rfl (if_neg hadm),fun i _ _ => ⟨hadm,rfl,rfl⟩⟩
      fun i hreach => absurd hreach.admitted hadm

/-- From right books, an event keeps them right, and no delete takes nobody's
add, exactly under its condition. -/
theorem step_ownershipOk_iff {e : Event} (hs : OwnershipOk s) :
    OwnershipOk (step s e) ∧ DeletesOwn s e ↔ KeepsOwnership s e := by
  cases e with
  | add p a vlanId relFlow isInVlan x =>
    rw [← add_ownershipOk_iff hs]
    refine and_iff_left ?_
    rintro p' a' vlanId' isInVlan' y' i ⟨⟩
  | del p a vlanId isInVlan y => exact del_ownershipOk_iff hs
  | vepaUse vepa =>
    refine iff_of_true ⟨ownershipOk_of_quiet hs rfl rfl rfl rfl,?_⟩ trivial
    rintro p' a' vlanId' isInVlan' y' i ⟨⟩

/-- The address of a configuration entry is found after initialisation. -/
theorem found_of_mem {shared : List McastCfg} {c : McastCfg} (h : AcceptedShared shared)
    (hc : c ∈ shared) (ale : MacAddr → Option U32) (vepa : Option VepaTable.VepaObj)
    (rsvd : List RsvdMcast) (m n : U32) :
    ∃ i, getSharedMcastInfo (startUp ale vepa shared rsvd m n).obj c.macAddr = some i := by
  obtain ⟨hlen,-,htable⟩ := init_accepted h (zeroed ale vepa) rsvd m n
  obtain ⟨k,hk,rfl⟩ := List.mem_iff_getElem.mp hc
  apply Option.ne_none_iff_exists'.mp
  intro hnone
  have hk' : k < sharedMcastListLen := Nat.lt_of_lt_of_le hk h.1
  refine getSharedMcastInfo_eq_none_iff.mp hnone ⟨k,hk'⟩ ?_ ?_
  · change k < (init (zeroed ale vepa) shared rsvd m n).2.sharedLen
    rw [hlen]
    exact hk
  · change ((init (zeroed ale vepa) shared rsvd m n).2.sharedMcast ⟨k,hk'⟩).macAddr = _
    rw [htable]
    simp [hk,sharedEntry]

/-- Initialisation starts with right books exactly when the ALE is clear of
the shared addresses. -/
theorem startUp_ownershipOk_iff {ale : MacAddr → Option U32} {vepa : Option VepaTable.VepaObj}
    {shared : List McastCfg} {rsvd : List RsvdMcast} {m n : U32} :
    OwnershipOk (startUp ale vepa shared rsvd m n) ↔ StartsClear ale shared := by
  by_cases hacc : AcceptedShared shared
  · obtain ⟨hlen,hale,htable⟩ := init_accepted hacc (zeroed ale vepa) rsvd m n
    have hstart : (startUp ale vepa shared rsvd m n).obj.ale = ale := hale
    constructor
    · intro hok _ c hc
      obtain ⟨i,hi⟩ := found_of_mem hacc hc ale vepa rsvd m n
      have hprog := (hok c.macAddr i hi).programmed
      rw [hstart] at hprog
      by_contra hne
      exact hprog.mp hne rfl
    · intro hclear a i hi
      have hentry : (startUp ale vepa shared rsvd m n).obj.sharedMcast i =
          (shared[i.val]?).elim ⟨VepaTable.zeroAddr,0#32,0#32,0#32⟩ sharedEntry := htable i
      obtain ⟨hcount,hmac⟩ := (getSharedMcastInfo_eq_some_iff.mp hi).1
      have hlt : i.val < shared.length := by
        rw [← hlen]
        exact hcount
      rw [hentry,List.getElem?_eq_getElem hlt] at hmac
      refine ⟨?_,?_⟩
      · rw [hentry,List.getElem?_eq_getElem hlt]
        rfl
      · rw [hstart,← hmac]
        exact iff_of_false (fun hne => hne (hclear hacc _ (List.getElem_mem hlt)))
          fun hne => hne rfl
  · refine iff_of_true (fun a i hi => ?_) fun h => absurd h hacc
    have hcount := (getSharedMcastInfo_eq_some_iff.mp hi).1.1
    change i.val < (init (zeroed ale vepa) shared rsvd m n).2.sharedLen at hcount
    rw [init_rejected hacc] at hcount
    exact absurd hcount (Nat.not_lt_zero _)

/-- In every run of filter requests by any ports on any addresses, with any
outcome of the ioctls and any other use of the VEPA table: the books of
every shared address agree in every state, and no delete by a port without
an outstanding add goes through, exactly when the ALE starts clear of the
shared addresses and every event meets its condition. -/
theorem ownership_kept_iff (ale : MacAddr → Option U32) (vepa : Option VepaTable.VepaObj)
    (shared : List McastCfg) (rsvd : List RsvdMcast) (switchPortMask macOnlyPortMask : U32)
    (events : List Event) :
    Along step OwnershipOk (startUp ale vepa shared rsvd switchPortMask macOnlyPortMask) events ∧
        Guarded step DeletesOwn (startUp ale vepa shared rsvd switchPortMask macOnlyPortMask)
          events ↔
      StartsClear ale shared ∧ Guarded step KeepsOwnership
        (startUp ale vepa shared rsvd switchPortMask macOnlyPortMask) events := by
  generalize hstart : startUp ale vepa shared rsvd switchPortMask macOnlyPortMask = s
  have hok : OwnershipOk s ↔ StartsClear ale shared := by
    rw [← hstart]
    exact startUp_ownershipOk_iff
  have hruns : OwnershipOk s → (Along step OwnershipOk s events ∧ Guarded step DeletesOwn s events ↔
      Guarded step KeepsOwnership s events) := by
    apply along_and_guarded_iff (I := OwnershipOk)
    · exact fun s h => h
    · exact fun s e h hk => ((step_ownershipOk_iff h).mpr hk).1
    · exact fun s e h => step_ownershipOk_iff h
  constructor
  · intro h
    have hs := along_start h.1
    exact ⟨hok.mp hs,(hruns hs).mp h⟩
  · rintro ⟨hclear,hk⟩
    exact (hruns (hok.mpr hclear)).mpr hk

/-- A shared multicast address. -/
def groupAddr : MacAddr := ⟨0x01#8,0#8,0x5E#8,0#8,0#8,0x01#8⟩

/-- A filter with one shared address, without VEPA support. -/
def oneShared : Filter :=
  startUp (fun _ => none) none [⟨groupAddr,0b11101#32,0x1E000000#32⟩] [] 0b1110#32 0b0001#32

/-- One port adds the address; another one, which never did, deletes it. -/
theorem ownership_lost_after_foreign_delete :
    ¬ (Along step OwnershipOk oneShared
        [.add switchPort groupAddr 0#16 (sok,0#32) false ⟨sok,sok,sok⟩,
          .del macPort groupAddr 0#16 false ⟨sok,sok⟩] ∧
      Guarded step DeletesOwn oneShared
        [.add switchPort groupAddr 0#16 (sok,0#32) false ⟨sok,sok,sok⟩,
          .del macPort groupAddr 0#16 false ⟨sok,sok⟩]) := by
  rintro ⟨-,h⟩
  have hfails := (h.2.1 macPort groupAddr 0#16 false ⟨sok,sok⟩ ⟨0,by decide⟩ rfl (by decide)
    (by decide)).1
  revert hfails
  decide

end EthernetFirmware.McastOwnership
