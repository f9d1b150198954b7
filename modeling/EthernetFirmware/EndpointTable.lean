import Mathlib.Logic.Function.Basic
import EthernetFirmware.CArrays
import EthernetFirmware.GuardedRuns
import EthernetFirmware.RemoteConfig

/-!
# Endpoint table of the Sitara message layer

Remote cores announce the services of their endpoints; the announcements are
kept in a table of eight entries that later lookups search by name. Both the
announcement callback and the lookup scan the table up to the number of
local endpoints, which is a constant of the SDK and a parameter here.

A lookup waits until the service is announced, so one event is one round of
its loop. What memory holds behind a name field or behind the table is the
environment's choice.
-/

namespace EthernetFirmware.EndpointTable

open Function RemoteConfig GuardedRuns CArrays

/-- `ETHFW_IPC_MAX_ANNOUNCE_ENDPT`. -/
def maxAnnounceEndpt : ℕ := 8

/-- `ETHFW_IPC_RPMSG_ENDPOINT_NAME_SIZE`. -/
def endpointNameSize : ℕ := 32

/-- Constants of the SDK. -/
structure Sdk where
  /-- `RPMESSAGE_MAX_LOCAL_ENDPT`. -/
  maxLocalEndPt : ℕ
  /-- `RPMESSAGE_ANY`. -/
  rpmessageAny : U32

/-- `EthFwIpc_endPtTable`. -/
structure EndPt where
  /-- Entry in use. -/
  isAnnounced : Bool
  /-- Service name. -/
  name : Fin endpointNameSize → U8
  /-- Announcing core. -/
  remoteProcId : U32
  /-- Announced endpoint. -/
  remoteEndPt : U32

/-- An entry after `EthFwIpc_resetObj`. -/
def EndPt.zero : EndPt := ⟨false,fun _ => 0,0,0⟩

/-- An announcement as the callback receives it. -/
structure Announcement where
  /-- Announcing core. -/
  remoteCoreId : U16
  /-- Endpoint. -/
  remoteEndPt : U16
  /-- Service name. -/
  remoteServiceName : CString U8

/-- Arguments of a lookup. -/
structure Query where
  /-- Core asked for. -/
  currProcId : U32
  /-- Service asked for. -/
  name : CString U8

/-- What a lookup returned with success. -/
structure Answer where
  /-- The lookup. -/
  query : Query
  /-- Core returned. -/
  remoteProcId : U32
  /-- Endpoint returned. -/
  remoteEndPt : U32

/-- Memory outside the table and outside its name fields. -/
structure Memory where
  /-- Entries read beyond the table. -/
  beyond : ℕ → EndPt
  /-- Characters behind the name of an entry. -/
  behind : ℕ → ℕ → U8

/-- The table, what has been asked of it, and the indices used. -/
structure Ipc where
  /-- `endPtTable`. -/
  endPtTable : Fin maxAnnounceEndpt → EndPt
  /-- Announcements received, oldest first. -/
  announcements : List Announcement
  /-- Announcements reported as dropped. -/
  reports : ℕ
  /-- Lookups that returned. -/
  answers : List Answer
  /-- Indices at which the table was accessed. -/
  accesses : List ℕ

/-- Entry at an index, in the table or beyond it. -/
def Ipc.entry (s : Ipc) (mem : Memory) (i : ℕ) : EndPt :=
  if h : i < maxAnnounceEndpt then s.endPtTable ⟨i,h⟩ else mem.beyond i

/-- Entry of an announcement. -/
def announcedEntry (a : Announcement) : EndPt where
  isAnnounced := true
  name := strncpy endpointNameSize a.remoteServiceName
  remoteProcId := a.remoteCoreId.setWidth 32
  remoteEndPt := a.remoteEndPt.setWidth 32

/-- `EthFwIpc_ctrlEndPtCb`: the first entry not in use takes the
announcement. -/
def ctrlEndPtCb (sdk : Sdk) (s : Ipc) (mem : Memory) (a : Announcement) : Ipc :=
  let found := scan (fun i => !(s.entry mem i).isAnnounced) sdk.maxLocalEndPt 0
  let s := { s with
    announcements := s.announcements ++ [a]
    accesses := s.accesses ++ found.1 }
  match found.2 with
  | some i =>
    if h : i < maxAnnounceEndpt then
      { s with endPtTable := update s.endPtTable ⟨i,h⟩ (announcedEntry a) }
    -- The entry is written behind the table.
    else s
  | none => { s with reports := s.reports + 1 }

/-- The test of a lookup on one entry. -/
def entryMatches (sdk : Sdk) (mem : Memory) (q : Query) (i : ℕ) (e : EndPt) : Bool :=
  strcmpEq (fieldMemory e.name fun j => mem.behind i j) 0 q.name.chars && e.isAnnounced &&
    (sdk.rpmessageAny == q.currProcId || q.currProcId == e.remoteProcId)

/-- One round of the loop of `EthFwIpc_getRemoteEndPt`. -/
def getRemoteEndPt (sdk : Sdk) (s : Ipc) (mem : Memory) (q : Query) : Ipc :=
  let found := scan (fun i => entryMatches sdk mem q i (s.entry mem i)) sdk.maxLocalEndPt 0
  let s' := { s with accesses := s.accesses ++ found.1 }
  match found.2 with
  | some i =>
    { s' with
      answers := s'.answers ++
        [⟨q,(s.entry mem i).remoteProcId,(s.entry mem i).remoteEndPt⟩] }
  | none => s'

/-- What happens to the table. -/
inductive Event where
  /-- A remote endpoint is announced. -/
  | announce (mem : Memory) (a : Announcement)
  /-- A lookup looks through the table once. -/
  | lookup (mem : Memory) (q : Query)

/-- One event. -/
def step (sdk : Sdk) (s : Ipc) : Event → Ipc
  | .announce mem a => ctrlEndPtCb sdk s mem a
  | .lookup mem q => getRemoteEndPt sdk s mem q

/-- The table after `EthFwIpc_resetObj`. -/
def start : Ipc := ⟨fun _ => EndPt.zero,[],0,[],[]⟩

/-- An answer was announced under exactly the name asked for, by the core
returned, which is the core asked for unless any core would do. -/
def AnswerOk (sdk : Sdk) (announcements : List Announcement) (r : Answer) : Prop :=
  (sdk.rpmessageAny = r.query.currProcId ∨ r.query.currProcId = r.remoteProcId) ∧
  ∃ a ∈ announcements, a.remoteServiceName.chars = r.query.name.chars ∧
    a.remoteCoreId.setWidth 32 = r.remoteProcId ∧ a.remoteEndPt.setWidth 32 = r.remoteEndPt

/-- The table is accessed within bounds, keeps the first eight announcements,
reports each later one, and answers exactly. -/
structure TableOk (sdk : Sdk) (s : Ipc) : Prop where
  /-- Indices lie in the table. -/
  bounded : ∀ i ∈ s.accesses, i < maxAnnounceEndpt
  /-- The first announcements are kept, and nothing else is. -/
  kept : ∀ i : Fin maxAnnounceEndpt,
    s.endPtTable i = (s.announcements[i.val]?.map announcedEntry).getD EndPt.zero
  /-- Each later announcement is reported. -/
  reported : s.reports = s.announcements.length - maxAnnounceEndpt
  /-- Names end inside their fields. -/
  terminated : ∀ i, Terminated (s.endPtTable i).name
  /-- Answers are exact. -/
  answered : ∀ r ∈ s.answers, AnswerOk sdk s.announcements r

/-- The condition on an event: an announcement that still fits the table
comes before as many as there are local endpoints, with a name shorter than
its field; one that no longer fits, and a lookup that finds nothing, need
the scan to end with the table. -/
def Regular (sdk : Sdk) (s : Ipc) : Event → Prop
  | .announce _ a =>
    if s.announcements.length < maxAnnounceEndpt then
      s.announcements.length < sdk.maxLocalEndPt ∧
        a.remoteServiceName.chars.length < endpointNameSize
    else sdk.maxLocalEndPt ≤ maxAnnounceEndpt
  | .lookup mem q =>
    sdk.maxLocalEndPt ≤ maxAnnounceEndpt ∨
      ∃ i : Fin maxAnnounceEndpt, entryMatches sdk mem q i (s.endPtTable i)

/-- Invariant of runs in which everything went right so far. -/
structure Inv (sdk : Sdk) (s : Ipc) : Prop where
  /-- The table is right. -/
  tableOk : TableOk sdk s
  /-- The scan covers the entries in use. -/
  covered : min s.announcements.length maxAnnounceEndpt ≤ sdk.maxLocalEndPt

section Steps

variable {sdk : Sdk} {s : Ipc} {mem : Memory} {a : Announcement} {q : Query}

theorem entry_of_lt (s : Ipc) (mem : Memory) {i : ℕ} (h : i < maxAnnounceEndpt) :
    s.entry mem i = s.endPtTable ⟨i,h⟩ :=
  dif_pos h

/-- Entries are in use up to the number of announcements. -/
theorem isAnnounced_iff (mem : Memory) (h : TableOk sdk s) {i : ℕ} (hi : i < maxAnnounceEndpt) :
    (s.entry mem i).isAnnounced = true ↔ i < s.announcements.length := by
  rw [entry_of_lt s mem hi,h.kept ⟨i,hi⟩]
  constructor
  · intro hann
    by_contra hge
    rw [List.getElem?_eq_none (by omega : s.announcements.length ≤ i)] at hann
    cases hann
  · intro hlt
    rw [List.getElem?_eq_getElem hlt]
    rfl

/-- An answer that holds keeps holding. -/
theorem AnswerOk.mono {announcements : List Announcement} {r : Answer}
    (h : AnswerOk sdk announcements r) : AnswerOk sdk (announcements ++ [a]) r := by
  obtain ⟨hcore,b,hb,hrest⟩ := h
  exact ⟨hcore,b,List.mem_append_left _ hb,hrest⟩

/-- Where an announcement goes while the table has room and the scan reaches
it. -/
theorem announce_room (mem : Memory) (h : TableOk sdk s)
    (hroom : s.announcements.length < maxAnnounceEndpt)
    (hreach : s.announcements.length < sdk.maxLocalEndPt) :
    (scan (fun i => !(s.entry mem i).isAnnounced) sdk.maxLocalEndPt 0).2 =
      some s.announcements.length := by
  refine scan_eq_some_iff.mpr ⟨Nat.zero_le _,by omega,?_,fun l _ hl => ?_⟩
  · have hnot := (isAnnounced_iff mem h hroom).not.mpr (Nat.lt_irrefl _)
    simpa using hnot
  · have hann := (isAnnounced_iff mem h (by omega : l < maxAnnounceEndpt)).mpr hl
    rw [hann]
    rfl

/-- The indices of a scan lie in the table when those seen before do and the
scan ends inside. -/
theorem bounded_append_iff {stop : ℕ → Bool} {n : ℕ} (h : TableOk sdk s) :
    (∀ i ∈ s.accesses ++ (scan stop n 0).1, i < maxAnnounceEndpt) ↔
      n ≤ maxAnnounceEndpt ∨ ∃ l < maxAnnounceEndpt, stop l = true := by
  rw [← scan_within_iff]
  constructor
  · exact fun hall i hi => hall i (List.mem_append_right _ hi)
  · rintro hscan i hi
    rcases List.mem_append.mp hi with hi | hi
    · exact h.bounded i hi
    · exact hscan i hi

/-- An announcement the table has room for is stored behind the others. -/
theorem announce_stored (h : TableOk sdk s) (hroom : s.announcements.length < maxAnnounceEndpt)
    (hreach : s.announcements.length < sdk.maxLocalEndPt) :
    ctrlEndPtCb sdk s mem a =
      { s with
        endPtTable := update s.endPtTable ⟨s.announcements.length,hroom⟩ (announcedEntry a)
        announcements := s.announcements ++ [a]
        accesses := s.accesses ++
          (scan (fun i => !(s.entry mem i).isAnnounced) sdk.maxLocalEndPt 0).1 } := by
  unfold ctrlEndPtCb
  dsimp only
  rw [announce_room mem h hroom hreach]
  exact dif_pos hroom

/-- An announcement the table has room for, within reach of the scan. -/
theorem announce_kept_iff (h : TableOk sdk s) (hroom : s.announcements.length < maxAnnounceEndpt)
    (hreach : s.announcements.length < sdk.maxLocalEndPt) :
    TableOk sdk (ctrlEndPtCb sdk s mem a) ↔
      a.remoteServiceName.chars.length < endpointNameSize := by
  have hfound := announce_room mem h hroom hreach
  rw [announce_stored h hroom hreach,← terminated_strncpy_iff]
  constructor
  · intro hok
    have hterm := hok.terminated ⟨s.announcements.length,hroom⟩
    dsimp only at hterm
    rw [update_self] at hterm
    exact hterm
  · intro hterm
    refine ⟨?_,?_,?_,?_,fun r hr => (h.answered r hr).mono⟩
    · refine (bounded_append_iff h).mpr (Or.inr ⟨_,hroom,?_⟩)
      exact (scan_eq_some_iff.mp hfound).2.2.1
    · intro i
      dsimp only
      by_cases hi : i = ⟨s.announcements.length,hroom⟩
      · subst hi
        rw [update_self,List.getElem?_append_right le_rfl,Nat.sub_self]
        rfl
      · rw [update_of_ne hi,h.kept i]
        have hne : i.val ≠ s.announcements.length := fun heq => hi (Fin.ext heq)
        rcases Nat.lt_or_gt_of_ne hne with hlt | hgt
        · rw [List.getElem?_append_left hlt]
        · rw [List.getElem?_eq_none (by omega),List.getElem?_eq_none]
          rw [List.length_append,List.length_singleton]
          omega
    · have hrep := h.reported
      dsimp only
      rw [List.length_append,List.length_singleton]
      omega
    · intro i
      dsimp only
      by_cases hi : i = ⟨s.announcements.length,hroom⟩
      · subst hi
        rw [update_self]
        exact hterm
      · rw [update_of_ne hi]
        exact h.terminated i

/-- An announcement that nothing in the scan's reach is free for. -/
theorem announce_dropped
    (hnone : ∀ i < sdk.maxLocalEndPt, (s.entry mem i).isAnnounced = true) :
    ctrlEndPtCb sdk s mem a =
      { s with
        announcements := s.announcements ++ [a]
        accesses := s.accesses ++
          (scan (fun i => !(s.entry mem i).isAnnounced) sdk.maxLocalEndPt 0).1
        reports := s.reports + 1 } := by
  have hscan : (scan (fun i => !(s.entry mem i).isAnnounced) sdk.maxLocalEndPt 0).2 = none := by
    refine scan_eq_none_iff.mpr fun k _ hk => ?_
    rw [hnone k (by omega)]
    rfl
  unfold ctrlEndPtCb
  dsimp only
  rw [hscan]

/-- An announcement the table has room for but the scan does not reach is
lost. -/
theorem announce_unreached (h : TableOk sdk s)
    (hroom : s.announcements.length < maxAnnounceEndpt)
    (hreach : sdk.maxLocalEndPt ≤ s.announcements.length) :
    ¬ TableOk sdk (ctrlEndPtCb sdk s mem a) := by
  intro hok
  have hnone : ∀ i < sdk.maxLocalEndPt, (s.entry mem i).isAnnounced = true :=
    fun i hi => (isAnnounced_iff mem h (by omega)).mpr (by omega)
  have hkept := hok.kept ⟨s.announcements.length,hroom⟩
  rw [announce_dropped hnone] at hkept
  dsimp only at hkept
  rw [h.kept,List.getElem?_eq_none le_rfl,List.getElem?_append_right le_rfl,Nat.sub_self] at hkept
  have hbit := congrArg EndPt.isAnnounced hkept
  cases hbit

/-- An announcement that finds the table full is dropped rightly exactly when
the scan ends with the table. -/
theorem announce_full_iff (h : TableOk sdk s)
    (hfull : maxAnnounceEndpt ≤ s.announcements.length) :
    TableOk sdk (ctrlEndPtCb sdk s mem a) ↔ sdk.maxLocalEndPt ≤ maxAnnounceEndpt := by
  have hused : ∀ i < maxAnnounceEndpt, (s.entry mem i).isAnnounced = true :=
    fun i hi => (isAnnounced_iff mem h hi).mpr (by omega)
  have hstays : ¬ ∃ l < maxAnnounceEndpt, (!(s.entry mem l).isAnnounced) = true := by
    rintro ⟨l,hl,hfree⟩
    rw [hused l hl] at hfree
    cases hfree
  constructor
  · intro hok
    have haccesses : (ctrlEndPtCb sdk s mem a).accesses = s.accesses ++
        (scan (fun i => !(s.entry mem i).isAnnounced) sdk.maxLocalEndPt 0).1 := by
      unfold ctrlEndPtCb
      dsimp only
      split
      · split_ifs <;> rfl
      · rfl
    have hbounded := hok.bounded
    rw [haccesses] at hbounded
    exact ((bounded_append_iff h).mp hbounded).resolve_right hstays
  · intro hend
    rw [announce_dropped fun i hi => hused i (by omega)]
    refine ⟨(bounded_append_iff h).mpr (Or.inl hend),?_,?_,h.terminated,
      fun r hr => (h.answered r hr).mono⟩
    · intro i
      dsimp only
      rw [h.kept i,List.getElem?_append_left (by omega)]
    · have hrep := h.reported
      dsimp only
      rw [List.length_append,List.length_singleton]
      omega

/-- An entry that matches answers the lookup exactly. -/
theorem answerOk_of_match (h : TableOk sdk s) {i : ℕ} (hi : i < maxAnnounceEndpt)
    (hmatch : entryMatches sdk mem q i (s.entry mem i) = true) :
    AnswerOk sdk s.announcements
      ⟨q,(s.entry mem i).remoteProcId,(s.entry mem i).remoteEndPt⟩ := by
  unfold entryMatches at hmatch
  simp only [Bool.and_eq_true,Bool.or_eq_true,beq_iff_eq] at hmatch
  obtain ⟨⟨hname,hann⟩,hcore⟩ := hmatch
  have hlt := (isAnnounced_iff mem h hi).mp hann
  have hentry : s.entry mem i = announcedEntry s.announcements[i] := by
    rw [entry_of_lt s mem hi,h.kept ⟨i,hi⟩,List.getElem?_eq_getElem hlt]
    rfl
  have hterm := h.terminated ⟨i,hi⟩
  rw [← entry_of_lt s mem hi,hentry] at hterm
  rw [hentry] at hname
  have hshort := terminated_strncpy_iff.mp hterm
  refine ⟨hcore,s.announcements[i],List.getElem_mem hlt,?_,?_,?_⟩
  · exact ((strcmpEq_strncpy_iff hshort).mp hname).symm
  · rw [hentry]
    rfl
  · rw [hentry]
    rfl

/-- A lookup stays in the table exactly when its scan ends there. -/
theorem lookup_bounded_iff (h : TableOk sdk s) :
    (∀ i ∈ s.accesses ++
      (scan (fun i => entryMatches sdk mem q i (s.entry mem i)) sdk.maxLocalEndPt 0).1,
      i < maxAnnounceEndpt) ↔ Regular sdk s (.lookup mem q) := by
  have hfirst : (∃ l < maxAnnounceEndpt, entryMatches sdk mem q l (s.entry mem l) = true) ↔
      ∃ i : Fin maxAnnounceEndpt, entryMatches sdk mem q i (s.endPtTable i) = true := by
    constructor
    · rintro ⟨l,hl,hmatch⟩
      exact ⟨⟨l,hl⟩,by rwa [entry_of_lt s mem hl] at hmatch⟩
    · rintro ⟨i,hmatch⟩
      exact ⟨i,i.isLt,by rwa [entry_of_lt s mem i.isLt]⟩
  rw [bounded_append_iff h,hfirst]
  rfl

/-- A lookup is right exactly when its scan ends in the table. -/
theorem lookup_iff (h : TableOk sdk s) :
    TableOk sdk (getRemoteEndPt sdk s mem q) ↔ Regular sdk s (.lookup mem q) := by
  have hbound : _ ↔ Regular sdk s (.lookup mem q) := lookup_bounded_iff h
  cases hscan : (scan (fun i => entryMatches sdk mem q i (s.entry mem i))
      sdk.maxLocalEndPt 0).2 with
  | none =>
    have hstate : getRemoteEndPt sdk s mem q =
        { s with
          accesses := s.accesses ++
            (scan (fun i => entryMatches sdk mem q i (s.entry mem i)) sdk.maxLocalEndPt 0).1 } := by
      unfold getRemoteEndPt
      dsimp only
      rw [hscan]
    rw [hstate]
    constructor
    · exact fun hok => hbound.mp hok.bounded
    · exact fun hregular => ⟨hbound.mpr hregular,h.kept,h.reported,h.terminated,h.answered⟩
  | some k =>
    have hstate : getRemoteEndPt sdk s mem q =
        { s with
          accesses := s.accesses ++
            (scan (fun i => entryMatches sdk mem q i (s.entry mem i)) sdk.maxLocalEndPt 0).1
          answers := s.answers ++
            [⟨q,(s.entry mem k).remoteProcId,(s.entry mem k).remoteEndPt⟩] } := by
      unfold getRemoteEndPt
      dsimp only
      rw [hscan]
    rw [hstate]
    constructor
    · exact fun hok => hbound.mp hok.bounded
    · intro hregular
      have hin := hbound.mpr hregular
      obtain ⟨-,hlt,hmatch,hbefore⟩ := scan_eq_some_iff.mp hscan
      have hk : k < maxAnnounceEndpt :=
        hin k (List.mem_append_right _ (mem_scan_iff.mpr ⟨Nat.zero_le _,hlt,hbefore⟩))
      refine ⟨hin,h.kept,h.reported,h.terminated,?_⟩
      intro r hr
      rcases List.mem_append.mp hr with hr | hr
      · exact h.answered r hr
      · rw [List.mem_singleton.mp hr]
        exact answerOk_of_match h hk hmatch

/-- One event leaves the table right exactly under its condition. -/
theorem step_tableOk_iff (hI : Inv sdk s) (e : Event) :
    TableOk sdk (step sdk s e) ↔ Regular sdk s e := by
  cases e with
  | lookup mem q => exact lookup_iff hI.tableOk
  | announce mem a =>
    change TableOk sdk (ctrlEndPtCb sdk s mem a) ↔ _
    unfold Regular
    dsimp only
    by_cases hroom : s.announcements.length < maxAnnounceEndpt
    · rw [if_pos hroom]
      by_cases hreach : s.announcements.length < sdk.maxLocalEndPt
      · rw [announce_kept_iff hI.tableOk hroom hreach]
        exact (and_iff_right hreach).symm
      · exact iff_of_false (announce_unreached hI.tableOk hroom (by omega))
          fun h => hreach h.1
    · rw [if_neg hroom]
      exact announce_full_iff hI.tableOk (by omega)

/-- Announcements are counted. -/
theorem announcements_step (s : Ipc) (e : Event) :
    (step sdk s e).announcements =
      match e with
      | .announce _ a => s.announcements ++ [a]
      | .lookup _ _ => s.announcements := by
  cases e with
  | announce mem a =>
    dsimp only [step,ctrlEndPtCb]
    split
    · split_ifs <;> rfl
    · rfl
  | lookup mem q =>
    dsimp only [step,getRemoteEndPt]
    split <;> rfl

theorem inv_step {e : Event} (hI : Inv sdk s) (hregular : Regular sdk s e) :
    Inv sdk (step sdk s e) := by
  refine ⟨(step_tableOk_iff hI e).mpr hregular,?_⟩
  have hcovered := hI.covered
  rw [announcements_step]
  cases e with
  | lookup mem q => exact hcovered
  | announce mem a =>
    unfold Regular at hregular
    dsimp only
    rw [List.length_append,List.length_singleton]
    split_ifs at hregular with hroom
    · omega
    · omega

theorem inv_start (sdk : Sdk) : Inv sdk start := by
  have hterm : Terminated EndPt.zero.name := ⟨⟨0,by unfold endpointNameSize; omega⟩,rfl⟩
  exact ⟨⟨fun _ h => absurd h List.not_mem_nil,fun _ => rfl,rfl,fun _ => hterm,
    fun _ h => absurd h List.not_mem_nil⟩,Nat.zero_le _⟩

end Steps

/-- In every run of announcements and lookups, whatever the SDK's constants
are, the table stays within bounds, complete and exact after every event
exactly when every event meets the condition. -/
theorem endpoint_table_iff (sdk : Sdk) (es : List Event) :
    Along (step sdk) (TableOk sdk) start es ↔ Guarded (step sdk) (Regular sdk) start es :=
  along_iff_guarded (fun _ hI => hI.tableOk) (fun _ _ hI hregular => inv_step hI hregular)
    (fun _ e hI => step_tableOk_iff hI e) (inv_start sdk)

/-- A service name of one letter. -/
def letterName : CString U8 := ⟨[0x61],by simp⟩

/-- Looking for a service before any is announced reads beyond the table
where there are more local endpoints than entries. -/
theorem lookup_reads_beyond_table :
    ¬ Along (step ⟨64,0xFFFF⟩) (TableOk ⟨64,0xFFFF⟩) start
      [.lookup ⟨fun _ => EndPt.zero,fun _ _ => 0⟩ ⟨0xFFFF,letterName⟩] := by
  intro h
  have hfinal := along_final h
  have hreach : 8 < 0 + (⟨64,0xFFFF⟩ : Sdk).maxLocalEndPt := by decide
  refine Nat.lt_irrefl _ (hfinal.bounded 8 (mem_scan_iff.mpr ⟨Nat.zero_le _,hreach,?_⟩))
  intro l _ hl
  have hentry := entry_of_lt start ⟨fun _ => EndPt.zero,fun _ _ => 0⟩ hl
  unfold entryMatches
  rw [hentry]
  simp [start,EndPt.zero]

end EthernetFirmware.EndpointTable
