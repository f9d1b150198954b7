import EthernetFirmware.EthernetFrames
import EthernetFirmware.ArpTable

/-!
# Proxy ARP

The handler of the ARP flow. It takes the bytes behind the header, or
behind a VLAN tag, for an ARP header, looks up the target address and, when
the table has it, sends a reply in place of the remote core. It reads
neither the type behind the tag nor the length of the frame nor any field of
the ARP header but the addresses. Of the tag it keeps the VLAN number.
-/

namespace EthernetFirmware.ArpReplies

open RemoteConfig ArpTable EthernetFrames

/-- `etharp_hdr`. -/
structure EtharpHdr where
  /-- Hardware type. -/
  hwtype : U16
  /-- Protocol type. -/
  proto : U16
  /-- Length of a hardware address. -/
  hwlen : U8
  /-- Length of a protocol address. -/
  protolen : U8
  /-- Operation. -/
  opcode : U16
  /-- Sender hardware address. -/
  shwaddr : MacAddr
  /-- Sender protocol address. -/
  sipaddr : U32
  /-- Target hardware address. -/
  dhwaddr : MacAddr
  /-- Target protocol address. -/
  dipaddr : U32
  deriving DecidableEq

/-- `SIZEOF_VLAN_HDR`. -/
def sizeofVlanHdr : ℕ := 4

/-- `SIZEOF_ETHARP_HDR`. -/
def sizeofEtharpHdr : ℕ := 28

/-- `ARP_REQUEST`. -/
def arpRequest : U16 := 1#16

/-- `ARP_REPLY`. -/
def arpReply : U16 := 2#16

/-- The hardware type of Ethernet. -/
def hwtypeEthernet : U16 := 1#16

/-- `ETH_HWADDR_LEN`. -/
def ethHwaddrLen : U8 := 6#8

/-- The size of `ip4_addr_t`. -/
def ip4AddrLen : U8 := 4#8

/-- The address at a place of memory. -/
def macAt (mem : ℕ → U8) (i : ℕ) : MacAddr :=
  ⟨mem i,mem (i + 1),mem (i + 2),mem (i + 3),mem (i + 4),mem (i + 5)⟩

/-- The IPv4 address at a place of memory. -/
def ipAt (mem : ℕ → U8) (i : ℕ) : U32 :=
  word32 (mem i) (mem (i + 1)) (mem (i + 2)) (mem (i + 3))

/-- The ARP header memory holds. -/
def hdrAt (mem : ℕ → U8) : EtharpHdr where
  hwtype := word16 (mem 0) (mem 1)
  proto := word16 (mem 2) (mem 3)
  hwlen := mem 4
  protolen := mem 5
  opcode := word16 (mem 6) (mem 7)
  shwaddr := macAt mem 8
  sipaddr := ipAt mem 14
  dhwaddr := macAt mem 18
  dipaddr := ipAt mem 24

/-- The bytes of an ARP header. -/
def EtharpHdr.bytes (h : EtharpHdr) : List U8 :=
  be16 h.hwtype ++ be16 h.proto ++ [h.hwlen,h.protolen] ++ be16 h.opcode ++ octets h.shwaddr ++
    be32 h.sipaddr ++ octets h.dhwaddr ++ be32 h.dipaddr

/-- Memory that holds the bytes of a list. -/
def memOf (l : List U8) (i : ℕ) : U8 := l.getD i 0#8

/-- Where the handler takes the ARP header to be. -/
def arpOffset (f : Frame) : ℕ := if f.isTagged then sizeofVlanHdr else 0

/-- What it reads as the ARP header. -/
def ethArpHdr (f : Frame) : EtharpHdr := hdrAt fun i => f.rest (arpOffset f + i)

/-- The type of what follows the header or the tag. -/
def innerType (f : Frame) : U16 :=
  if f.isTagged then word16 (f.rest 2) (f.rest 3) else f.ethType

/-- Priority and drop eligibility of the tag of a reply. -/
def pcpDei : U16 := 0#16

/-- The frame `EthFwArp_sendRaw` hands to the link; none without a buffer. -/
def sendRaw (alloc : Bool) (ethSrcAddr ethDstAddr hwSrcAddr : MacAddr) (ipSrcAddr : U32)
    (hwDstAddr : MacAddr) (ipDstAddr : U32) (vlanId opcode : U16) : Option Frame :=
  let arpHdr : EtharpHdr :=
    ⟨hwtypeEthernet,ethTypeIp,ethHwaddrLen,ip4AddrLen,opcode,hwSrcAddr,ipSrcAddr,hwDstAddr,
      ipDstAddr⟩
  if alloc then
    if vlanId = 0#16 then
      some ⟨ethDstAddr,ethSrcAddr,ethTypeArp,memOf arpHdr.bytes,sizeofEtharpHdr,by decide⟩
    else
      some ⟨ethDstAddr,ethSrcAddr,ethTypeVlan,
        memOf (be16 (pcpDei ||| vlanId) ++ be16 ethTypeArp ++ arpHdr.bytes),
        sizeofVlanHdr + sizeofEtharpHdr,by decide⟩
  else none

/-- What the handler did with a frame. -/
structure Handling where
  /-- The frame is not passed on to the network stack. -/
  handled : Bool
  /-- The reply handed to the link. -/
  reply : Option Frame

/-- `EthFwCallbacks_handleArpRxPktFxn`, given whether a buffer is there for a reply. -/
def handleArpRxPktFxn (t : Table) (f : Frame) (alloc : Bool) : Handling :=
  let dstIp := (ethArpHdr f).dipaddr
  let srcIp := (ethArpHdr f).sipaddr
  match getHwAddr t dstIp f.vlanId with
  | some hwAddr =>
    ⟨true,sendRaw alloc hwAddr (ethArpHdr f).shwaddr hwAddr dstIp (ethArpHdr f).shwaddr srcIp
      f.vlanId arpReply⟩
  | none => ⟨false,none⟩

/-- The frame is a whole ARP request for an IPv4 address on Ethernet. -/
structure IsRequest (f : Frame) : Prop where
  /-- An ARP packet. -/
  type : innerType f = ethTypeArp
  /-- Its header lies in the frame. -/
  whole : arpOffset f + sizeofEtharpHdr ≤ f.restLen
  /-- Of Ethernet. -/
  hwtype : (ethArpHdr f).hwtype = hwtypeEthernet
  /-- For IPv4. -/
  proto : (ethArpHdr f).proto = ethTypeIp
  /-- With addresses of six bytes. -/
  hwlen : (ethArpHdr f).hwlen = ethHwaddrLen
  /-- And of four bytes. -/
  protolen : (ethArpHdr f).protolen = ip4AddrLen
  /-- A request. -/
  opcode : (ethArpHdr f).opcode = arpRequest

/-- The table has the target address on the VLAN of the frame. -/
def Registered (t : Table) (f : Frame) : Prop :=
  (getHwAddr t (ethArpHdr f).dipaddr f.vlanId).isSome = true

/-- The second frame, read as the handler reads frames, replies to the first for the core
with the address. -/
structure IsReplyTo (f : Frame) (hwAddr : MacAddr) (r : Frame) : Prop where
  /-- It goes to the requester. -/
  dest : r.dest = (ethArpHdr f).shwaddr
  /-- With the tag of the request. -/
  tag : r.tag = f.tag
  /-- It is an ARP packet. -/
  type : innerType r = ethTypeArp
  /-- A reply. -/
  opcode : (ethArpHdr r).opcode = arpReply
  /-- The sender has the registered address. -/
  shwaddr : (ethArpHdr r).shwaddr = hwAddr
  /-- And the address asked for. -/
  sipaddr : (ethArpHdr r).sipaddr = (ethArpHdr f).dipaddr
  /-- The target is the requester. -/
  dhwaddr : (ethArpHdr r).dhwaddr = (ethArpHdr f).shwaddr
  /-- With the address it asked from. -/
  dipaddr : (ethArpHdr r).dipaddr = (ethArpHdr f).sipaddr

/-- The handler answers the frame if and only if it should, and as it should. -/
structure Exact (t : Table) (f : Frame) (alloc : Bool) : Prop where
  /-- Requests for a registered address are answered and nothing else. -/
  answered : (handleArpRxPktFxn t f alloc).reply.isSome = true ↔ IsRequest f ∧ Registered t f
  /-- What is sent is the reply for the registered core. -/
  reply : ∀ r, (handleArpRxPktFxn t f alloc).reply = some r →
    ∃ hwAddr, getHwAddr t (ethArpHdr f).dipaddr f.vlanId = some hwAddr ∧ IsReplyTo f hwAddr r
  /-- Every other frame is passed on. -/
  passed : ¬ (IsRequest f ∧ Registered t f) → (handleArpRxPktFxn t f alloc).handled = false

/-- A tag of the frame names a VLAN and has no priority. -/
def PlainTag (f : Frame) : Prop :=
  f.isTagged = true → f.prioVid &&& 0xFFF#16 = f.prioVid ∧ f.prioVid ≠ 0#16

/-- A frame whose target address the table has is a request with a plain tag or none, and
there is a buffer for the reply. -/
def Answerable (t : Table) (f : Frame) (alloc : Bool) : Prop :=
  Registered t f → IsRequest f ∧ PlainTag f ∧ alloc = true

section Headers

/-- Memory behind the bytes of the first list holds those of the second. -/
theorem memOf_append (l m : List U8) (i : ℕ) : memOf (l ++ m) (l.length + i) = memOf m i := by
  rw [memOf,List.getD_eq_getElem?_getD,List.getElem?_append_right (Nat.le_add_right ..),
    Nat.add_sub_cancel_left,← List.getD_eq_getElem?_getD,memOf]

/-- The memory of a list has its bytes. -/
theorem map_memOf (l : List U8) : (List.range l.length).map (memOf l) = l := by
  apply List.ext_getElem?
  intro i
  rw [List.getElem?_map]
  by_cases hi : i < l.length
  · simp [memOf,hi]
  · simp [hi]

/-- A header is read back from its bytes. -/
theorem hdrAt_bytes (h : EtharpHdr) : hdrAt (memOf h.bytes) = h := by
  obtain ⟨hwtype,proto,hwlen,protolen,opcode,shwaddr,sipaddr,dhwaddr,dipaddr⟩ := h
  simp only [hdrAt,macAt,ipAt,memOf,EtharpHdr.bytes,be16,be32,octets,List.cons_append,
    List.nil_append,List.getD_cons_zero,List.getD_cons_succ,word16_be16,word32_be32]

end Headers

section Replies

variable {t : Table} {f r : Frame} {alloc : Bool} {hwAddr : MacAddr}
  {src dst hwSrc hwDst : MacAddr} {ipSrc ipDst : U32} {vlanId opcode : U16}

/-- The header of a reply. -/
def arpHdrOf (opcode : U16) (hwSrc : MacAddr) (ipSrc : U32) (hwDst : MacAddr) (ipDst : U32) :
    EtharpHdr :=
  ⟨hwtypeEthernet,ethTypeIp,ethHwaddrLen,ip4AddrLen,opcode,hwSrc,ipSrc,hwDst,ipDst⟩

/-- What a frame sent with a VLAN number is, read as the handler reads frames. -/
structure Carries (r : Frame) (src dst : MacAddr) (vlanId : U16) (h : EtharpHdr) : Prop where
  /-- Its source. -/
  src_eq : r.src = src
  /-- Its destination. -/
  dest_eq : r.dest = dst
  /-- Tagged with the VLAN number unless that is zero. -/
  tag_eq : r.tag = if vlanId = 0#16 then [] else vlanTag vlanId
  /-- An ARP packet. -/
  type_eq : innerType r = ethTypeArp
  /-- With the header. -/
  hdr_eq : ethArpHdr r = h
  /-- The bytes on the wire. -/
  bytes_eq : r.bytes = octets dst ++ octets src ++
    ((if vlanId = 0#16 then [] else vlanTag vlanId) ++ be16 ethTypeArp ++ h.bytes)

/-- What is sent without a tag. -/
theorem carries_untagged (h : EtharpHdr)
    (hr : r = ⟨dst,src,ethTypeArp,memOf h.bytes,sizeofEtharpHdr,by decide⟩) :
    Carries r src dst 0#16 h := by
  have htag : r.isTagged = false := by rw [hr]; rfl
  refine ⟨by rw [hr],by rw [hr],?_,?_,?_,?_⟩
  · rw [Frame.tag,htag,if_neg Bool.false_ne_true,if_pos rfl]
  · rw [innerType,htag,if_neg Bool.false_ne_true,hr]
  · rw [ethArpHdr,arpOffset,htag,if_neg Bool.false_ne_true,hr]
    simp only [Nat.zero_add]
    exact hdrAt_bytes h
  · rw [hr,if_pos rfl,List.nil_append]
    change octets dst ++ octets src ++ be16 ethTypeArp ++
      (List.range h.bytes.length).map (memOf h.bytes) = _
    rw [map_memOf,List.append_assoc]

/-- What is sent with a tag. -/
theorem carries_tagged (h : EtharpHdr) (hv : vlanId ≠ 0#16)
    (hr : r = ⟨dst,src,ethTypeVlan,memOf (be16 vlanId ++ be16 ethTypeArp ++ h.bytes),
      sizeofVlanHdr + sizeofEtharpHdr,by decide⟩) :
    Carries r src dst vlanId h := by
  have hprio : r.prioVid = vlanId := by
    rw [hr]
    exact word16_be16 vlanId
  have htag : r.isTagged = true := by rw [hr]; rfl
  refine ⟨by rw [hr],by rw [hr],?_,?_,?_,?_⟩
  · rw [Frame.tag,htag,hprio,if_pos rfl,if_neg hv]
  · rw [innerType,htag,if_pos rfl,hr]
    exact word16_be16 ethTypeArp
  · rw [ethArpHdr,arpOffset,htag,if_pos rfl,hr]
    have hmem : (fun i => memOf (be16 vlanId ++ be16 ethTypeArp ++ h.bytes) (sizeofVlanHdr + i)) =
        memOf h.bytes := funext fun i => memOf_append _ _ i
    exact (congrArg hdrAt hmem).trans (hdrAt_bytes h)
  · rw [hr,if_neg hv]
    change octets dst ++ octets src ++ be16 ethTypeVlan ++
      (List.range (be16 vlanId ++ be16 ethTypeArp ++ h.bytes).length).map
        (memOf (be16 vlanId ++ be16 ethTypeArp ++ h.bytes)) = _
    rw [map_memOf,vlanTag]
    simp only [List.append_assoc]

/-- A frame is sent exactly when there is a buffer. -/
theorem sendRaw_isSome :
    (sendRaw alloc src dst hwSrc ipSrc hwDst ipDst vlanId opcode).isSome = alloc := by
  unfold sendRaw
  cases alloc with
  | false => rfl
  | true =>
    dsimp only
    rw [if_pos rfl]
    split <;> rfl

/-- The frame that is sent is the one asked for. -/
theorem sendRaw_carries
    (h : sendRaw alloc src dst hwSrc ipSrc hwDst ipDst vlanId opcode = some r) :
    Carries r src dst vlanId (arpHdrOf opcode hwSrc ipSrc hwDst ipDst) := by
  cases alloc with
  | false => contradiction
  | true =>
    unfold sendRaw at h
    dsimp only at h
    rw [if_pos rfl] at h
    by_cases hv : vlanId = 0#16
    · rw [if_pos hv,Option.some.injEq] at h
      rw [hv]
      exact carries_untagged _ h.symm
    · rw [if_neg hv,Option.some.injEq,pcpDei,BitVec.zero_or] at h
      exact carries_tagged _ hv h.symm

/-- A frame for a registered target is taken for a request. -/
theorem handle_of_some (h : getHwAddr t (ethArpHdr f).dipaddr f.vlanId = some hwAddr) :
    handleArpRxPktFxn t f alloc =
      ⟨true,sendRaw alloc hwAddr (ethArpHdr f).shwaddr hwAddr (ethArpHdr f).dipaddr
        (ethArpHdr f).shwaddr (ethArpHdr f).sipaddr f.vlanId arpReply⟩ := by
  unfold handleArpRxPktFxn
  simp only [h]

/-- Every other frame is passed on. -/
theorem handle_of_none (h : getHwAddr t (ethArpHdr f).dipaddr f.vlanId = none) :
    handleArpRxPktFxn t f alloc = ⟨false,none⟩ := by
  unfold handleArpRxPktFxn
  simp only [h]

/-- The tag rebuilt from the VLAN number is the tag of the frame exactly when that is plain. -/
theorem tag_eq_iff : (if f.vlanId = 0#16 then [] else vlanTag f.vlanId) = f.tag ↔ PlainTag f := by
  unfold Frame.tag PlainTag Frame.vlanId
  cases f.isTagged with
  | false => simp
  | true =>
    simp only [if_true,forall_const]
    by_cases hv : f.prioVid &&& 0xFFF#16 = 0#16
    · rw [if_pos hv]
      have hne : ([] : List U8) ≠ vlanTag f.prioVid := (List.cons_ne_nil _ _).symm
      exact iff_of_false hne fun h => h.2 (h.1.symm.trans hv)
    · rw [if_neg hv,vlanTag_inj]
      refine ⟨fun h => ⟨h,fun h0 => hv ?_⟩,fun h => h.1⟩
      rw [h,h0]

/-- What is sent for a registered target replies to the frame if the tag is plain, and only
then. -/
theorem isReplyTo_iff
    (h : Carries r hwAddr (ethArpHdr f).shwaddr f.vlanId
      (arpHdrOf arpReply hwAddr (ethArpHdr f).dipaddr (ethArpHdr f).shwaddr
        (ethArpHdr f).sipaddr)) :
    IsReplyTo f hwAddr r ↔ PlainTag f := by
  rw [← tag_eq_iff,← h.tag_eq]
  refine ⟨fun hr => hr.tag,fun htag => ⟨h.dest_eq,htag,h.type_eq,?_,?_,?_,?_,?_⟩⟩ <;>
    rw [h.hdr_eq] <;> rfl

/-- The handler answers the frame as it should exactly when the frame is answerable, or its
target address is not registered. -/
theorem arp_exact_iff (t : Table) (f : Frame) (alloc : Bool) :
    Exact t f alloc ↔ Answerable t f alloc := by
  cases hget : getHwAddr t (ethArpHdr f).dipaddr f.vlanId with
  | none =>
    have hreg : ¬ Registered t f := by simp [Registered,hget]
    have hh : handleArpRxPktFxn t f alloc = ⟨false,none⟩ := handle_of_none hget
    refine iff_of_true ⟨?_,?_,?_⟩ fun h => absurd h hreg
    · rw [hh]
      simp [hreg]
    · intro r hr
      rw [hh] at hr
      contradiction
    · rw [hh]
      exact fun _ => rfl
  | some hwAddr =>
    have hreg : Registered t f := by simp [Registered,hget]
    have hh : handleArpRxPktFxn t f alloc = ⟨true,_⟩ := handle_of_some hget
    constructor
    · intro h _
      have hreq : IsRequest f := by
        by_contra hno
        have hpass := h.passed fun hboth => hno hboth.1
        rw [hh] at hpass
        contradiction
      have hsome := h.answered.mpr ⟨hreq,hreg⟩
      obtain ⟨r,hr⟩ := Option.isSome_iff_exists.mp hsome
      obtain ⟨hwAddr',hget',hrep⟩ := h.reply r hr
      rw [hget,Option.some.injEq] at hget'
      subst hget'
      rw [hh] at hsome hr
      exact ⟨hreq,(isReplyTo_iff (sendRaw_carries hr)).mp hrep,sendRaw_isSome.symm.trans hsome⟩
    · intro h
      obtain ⟨hreq,hplain,halloc⟩ := h hreg
      refine ⟨?_,?_,fun hno => absurd ⟨hreq,hreg⟩ hno⟩
      · rw [hh]
        exact iff_of_true (sendRaw_isSome.trans halloc) ⟨hreq,hreg⟩
      · intro r hr
        rw [hh] at hr
        exact ⟨hwAddr,hget,(isReplyTo_iff (sendRaw_carries hr)).mpr hplain⟩

/-- A client at an address. -/
def clientTable : Table :=
  (addAddr (fun _ => false) (init true fun _ => ⟨0#32,⟨0#8,0#8,0#8,0#8,0#8,0#8⟩,0#16,true⟩).2
    0xC0A80002#32 ⟨0x70#8,0xFF#8,0x76#8,0#8,0#8,2#8⟩ 0#16).2

/-- A broadcast ARP reply to that address. -/
def replyFrame : Frame where
  dest := MacAddr.bcast
  src := ⟨0x70#8,0xFF#8,0x76#8,0#8,0#8,9#8⟩
  ethType := ethTypeArp
  rest := memOf (arpHdrOf arpReply ⟨0x70#8,0xFF#8,0x76#8,0#8,0#8,9#8⟩ 0xC0A80009#32
    ⟨0x70#8,0xFF#8,0x76#8,0#8,0#8,2#8⟩ 0xC0A80002#32).bytes
  restLen := 46
  totLen_lt := minimal_totLen_lt

theorem handled_replyFrame : (handleArpRxPktFxn clientTable replyFrame true).handled = true := by
  decide

/-- A reply is answered as if it were a request. -/
theorem answers_a_reply : ¬ Exact clientTable replyFrame true := by
  intro h
  have hno : ¬ IsRequest replyFrame := fun hreq => absurd hreq.opcode (by decide)
  have hpass := h.passed fun hboth => hno hboth.1
  rw [handled_replyFrame] at hpass
  contradiction

end Replies

end EthernetFirmware.ArpReplies
