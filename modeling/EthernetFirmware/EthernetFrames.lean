import EthernetFirmware.RemoteConfig

/-!
# Ethernet frames in memory

A received frame as its header and the memory behind the header, of which
only the first bytes belong to the frame: the code reads a VLAN tag or an
ARP header there without looking at the length. Words are stored most
significant byte first. A VLAN tag stands after the two addresses, and
removing it gives back the frame it was put in.
-/

namespace EthernetFirmware.EthernetFrames

open RemoteConfig

/-- `ETHTYPE_IP`. -/
def ethTypeIp : U16 := 0x0800#16

/-- `ETHTYPE_ARP`. -/
def ethTypeArp : U16 := 0x0806#16

/-- `ETHTYPE_VLAN`. -/
def ethTypeVlan : U16 := 0x8100#16

/-- A 16-bit word in network order. -/
def be16 (v : U16) : List U8 := [v.extractLsb' 8 8,v.extractLsb' 0 8]

/-- A 32-bit word in network order. -/
def be32 (v : U32) : List U8 :=
  [v.extractLsb' 24 8,v.extractLsb' 16 8,v.extractLsb' 8 8,v.extractLsb' 0 8]

/-- The 16-bit word of two bytes. -/
def word16 (hi lo : U8) : U16 := hi ++ lo

/-- The 32-bit word of four bytes. -/
def word32 (b0 b1 b2 b3 : U8) : U32 := b0 ++ b1 ++ b2 ++ b3

/-- The octets of an address. -/
def octets (a : MacAddr) : List U8 := [a.b0,a.b1,a.b2,a.b3,a.b4,a.b5]

/-- The four bytes of a VLAN tag. -/
def vlanTag (tci : U16) : List U8 := be16 ethTypeVlan ++ be16 tci

/-- An Ethernet frame in contiguous memory. -/
structure Frame where
  /-- Destination address. -/
  dest : MacAddr
  /-- Source address. -/
  src : MacAddr
  /-- The type field of the header. -/
  ethType : U16
  /-- Memory from the end of the header on. -/
  rest : ℕ → U8
  /-- How many of these bytes belong to the frame. -/
  restLen : ℕ
  /-- The length of the frame is a 16-bit word. -/
  totLen_lt : 14 + restLen < 2 ^ 16

/-- The shortest frame on the wire, 60 bytes, has room for its length. -/
theorem minimal_totLen_lt : 14 + 46 < 2 ^ 16 := by decide

namespace Frame

variable (f : Frame)

/-- `tot_len`. -/
def totLen : ℕ := 14 + f.restLen

/-- The bytes behind the header. -/
def payload : List U8 := (List.range f.restLen).map f.rest

/-- The frame byte for byte. -/
def bytes : List U8 := octets f.dest ++ octets f.src ++ be16 f.ethType ++ f.payload

/-- The type field announces a VLAN tag. -/
def isTagged : Bool := decide (f.ethType = ethTypeVlan)

/-- `prio_vid`, as found behind the header. -/
def prioVid : U16 := word16 (f.rest 0) (f.rest 1)

/-- VLAN of the frame; zero when it is not tagged. -/
def vlanId : U16 := if f.isTagged then f.prioVid &&& 0xFFF#16 else 0#16

/-- The bytes of the tag. -/
def tag : List U8 := if f.isTagged then vlanTag f.prioVid else []

@[simp] theorem length_payload : f.payload.length = f.restLen := by simp [payload]

end Frame

/-- The tag of the two bytes behind the addresses stands in the frame. -/
def HasTag (tci : U16) (l : List U8) : Prop := (l.drop 12).take 4 = vlanTag tci

/-- The frame without the four bytes behind the addresses. -/
def stripTag (l : List U8) : List U8 := l.take 12 ++ l.drop 16

section Words

variable {v w : U16} {hi lo : U8}

@[simp] theorem length_be16 : (be16 v).length = 2 := rfl

@[simp] theorem length_octets (a : MacAddr) : (octets a).length = 6 := rfl

@[simp] theorem length_vlanTag : (vlanTag v).length = 4 := rfl

/-- Reading a word back from its bytes. -/
theorem word16_be16 (v : U16) : word16 (v.extractLsb' 8 8) (v.extractLsb' 0 8) = v := by
  apply BitVec.eq_of_getLsbD_eq
  intro i hi
  rw [word16,BitVec.getLsbD_append]
  by_cases h : i < 8
  · simp [h]
  · simp [h,show i - 8 < 8 by omega,show 8 + (i - 8) = i by omega]

theorem word32_be32 (v : U32) :
    word32 (v.extractLsb' 24 8) (v.extractLsb' 16 8) (v.extractLsb' 8 8)
      (v.extractLsb' 0 8) = v := by
  apply BitVec.eq_of_getLsbD_eq
  intro i hi
  rw [word32,BitVec.getLsbD_append,BitVec.getLsbD_append,BitVec.getLsbD_append]
  by_cases h0 : i < 8
  · simp [h0]
  · by_cases h1 : i - 8 < 8
    · simp [h0,h1,show 8 + (i - 8) = i by omega]
    · by_cases h2 : i - 8 - 8 < 8
      · simp [h0,h1,h2,show 16 + (i - 8 - 8) = i by omega]
      · simp [h0,h1,h2,show i - 8 - 8 - 8 < 8 by omega,
          show 24 + (i - 8 - 8 - 8) = i by omega]

/-- Different words have different bytes. -/
theorem be16_inj : be16 v = be16 w ↔ v = w := by
  refine ⟨fun h => ?_,congrArg be16⟩
  simp only [be16,List.cons.injEq,and_true] at h
  rw [← word16_be16 v,h.1,h.2,word16_be16]

/-- Different tags have different bytes. -/
theorem vlanTag_inj : vlanTag v = vlanTag w ↔ v = w := by
  rw [vlanTag,vlanTag,List.append_cancel_left_eq,be16_inj]

end Words

section Tags

variable {d s : MacAddr} {tci : U16} {l : List U8}

theorem hasTag_insert : HasTag tci (octets d ++ octets s ++ vlanTag tci ++ l) := by
  rw [HasTag,List.append_assoc (octets d ++ octets s),
    List.drop_left' (by simp),List.take_left' length_vlanTag]

/-- Removing a tag gives back the frame it was put in. -/
theorem stripTag_insert :
    stripTag (octets d ++ octets s ++ vlanTag tci ++ l) = octets d ++ octets s ++ l := by
  rw [stripTag,List.drop_left' (by simp),List.append_assoc (octets d ++ octets s),
    List.take_left' (by simp)]

/-- A frame cut off before its tag does not carry it. -/
theorem not_hasTag_of_short (h : l.length ≤ 12) : ¬ HasTag tci l := by
  rw [HasTag,List.drop_eq_nil_of_le h]
  simp [vlanTag,be16]

end Tags

end EthernetFirmware.EthernetFrames
