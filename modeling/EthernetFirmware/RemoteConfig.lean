import EthernetFirmware.BitMasks

/-!
# Remote configuration protocol

The data shared by the server and its clients: status codes, command
types, virtual port numbers, client identities, MAC addresses and the
message headers. Port numbers and tokens are raw 32-bit words because a
request carries them unchecked; `PortId` is the subtype of the numbers
the protocol names.
-/

namespace EthernetFirmware.RemoteConfig

open BitMasks

/-- Unsigned byte. -/
abbrev U8 := BitVec 8

/-- Unsigned 16-bit word. -/
abbrev U16 := BitVec 16

/-- Unsigned 32-bit word. -/
abbrev U32 := BitVec 32

/-- A count goes up by one unless it wraps around. -/
theorem toNat_succ_iff {n : U32} : (n + 1#32).toNat = n.toNat + 1 ↔ n ≠ 0xFFFFFFFF#32 := by
  have hlt := n.isLt
  have hsucc : (n + 1#32).toNat = (n.toNat + 1) % 2 ^ 32 := by
    rw [BitVec.toNat_add]
    rfl
  have hmax : n = 0xFFFFFFFF#32 ↔ n.toNat = 2 ^ 32 - 1 :=
    ⟨fun h => by rw [h]; rfl,fun h => BitVec.eq_of_toNat_eq h⟩
  rw [Ne,hmax,hsucc]
  omega

/-- A count below the largest one goes up by one. -/
theorem toNat_succ {n : U32} (h : n.toNat < 2 ^ 32 - 1) : (n + 1#32).toNat = n.toNat + 1 := by
  refine toNat_succ_iff.mpr ?_
  rintro rfl
  exact absurd h (by decide)

/-- A positive count goes down by one. -/
theorem toNat_pred {n : U32} (h : n ≠ 0#32) : (n - 1#32).toNat = n.toNat - 1 := by
  have hpos : n.toNat ≠ 0 := fun hz => h (BitVec.eq_of_toNat_eq hz)
  have hlt := n.isLt
  rw [BitVec.toNat_sub]
  simp only [BitVec.toNat_ofNat]
  omega

/-- Status code: zero or positive on success, negative on failure. -/
abbrev Status := Int

/-- `ETHREMOTECFG_SOK` and the equal codes of the driver layers. -/
def sok : Status := 0

/-- `ETHREMOTECFG_EFAIL`. -/
def efail : Status := -1

/-- `ETHREMOTECFG_EBADARGS`. -/
def ebadArgs : Status := -2

/-- `ETHREMOTECFG_EINVALIDPARAMS`. -/
def einvalidParams : Status := -3

/-- `ETHREMOTECFG_ETIMEOUT`. -/
def etimeout : Status := -4

/-- `ETHREMOTECFG_EALLOC`. -/
def ealloc : Status := -8

/-- `ETHREMOTECFG_EUNEXPECTED`. -/
def eunexpected : Status := -9

/-- `ETHREMOTECFG_EBUSY`. -/
def ebusy : Status := -10

/-- `ETHREMOTECFG_EPERM`. -/
def eperm : Status := -12

/-- `ETHREMOTECFG_ENOTSUPPORTED`. -/
def enotSupported : Status := -13

/-- `ETHREMOTECFG_ENOTFOUND`. -/
def enotfound : Status := -14

@[simp] theorem efail_ne_sok : efail ≠ sok := by decide

@[simp] theorem ebadArgs_ne_sok : ebadArgs ≠ sok := by decide

@[simp] theorem einvalidParams_ne_sok : einvalidParams ≠ sok := by decide

@[simp] theorem etimeout_ne_sok : etimeout ≠ sok := by decide

@[simp] theorem eunexpected_ne_sok : eunexpected ≠ sok := by decide

@[simp] theorem ealloc_ne_sok : ealloc ≠ sok := by decide

@[simp] theorem ebusy_ne_sok : ebusy ≠ sok := by decide

@[simp] theorem eperm_ne_sok : eperm ≠ sok := by decide

@[simp] theorem enotSupported_ne_sok : enotSupported ≠ sok := by decide

/-- `ETHREMOTECFG_TOKEN_NONE`, the reserved token. -/
def tokenNone : U32 := 0xFFFFFFFF#32

/-- Request types, in protocol order. -/
inductive CmdType where
  | virtPortInfo | attach | attachExt | detach | portLinkStatus
  | allocTx | allocRx | allocMac | freeTx | freeRx | freeMac
  | registerMac | deregisterMac | setRxDefaultFlow | delRxDefaultFlow
  | registerIpv4 | deregisterIpv4 | joinVlan | leaveVlan
  | addFilterMac | delFilterMac | registerMatchEthtype | deregisterMatchEthtype
  | registerRemoteTimer | deregisterRemoteTimer | getServerStatus
  | teardownCompletion | dump | allocCptsHwPush | freeCptsHwPush
  deriving DecidableEq, Repr

/-- `ETHREMOTECFG_CLIENTID_LAST`, the largest client identity. -/
def clientIdLast : ℕ := 4

/-- First and last virtual MAC port. -/
def macPort1 : U32 := 1#32

/-- `ETHREMOTECFG_MAC_PORT_LAST`. -/
def macPortLast : U32 := 8#32

/-- `ETHREMOTECFG_SWITCH_PORT_0`. -/
def switchPort0 : U32 := 25#32

/-- `ETHREMOTECFG_SWITCH_PORT_LAST`. -/
def switchPortLast : U32 := 28#32

/-- `EthFwVirtPort_isSwitchPort`. -/
def isSwitchPort (portId : U32) : Bool :=
  decide (switchPort0 ≤ portId) && decide (portId ≤ switchPortLast)

/-- `EthFwVirtPort_isMacPort`. -/
def isMacPort (portId : U32) : Bool :=
  decide (macPort1 ≤ portId) && decide (portId ≤ macPortLast)

/-- `EthFwVirtPort_getMacPort` of a virtual MAC port: its zero-relative
Ethernet port. -/
def getMacPort (portId : U32) : U32 := portId - macPort1

/-- The port numbers of `EthRemoteCfg_VirtPort`. -/
abbrev PortId := {v : U32 // isMacPort v = true ∨ isSwitchPort v = true}

theorem isMacPort_macPort1 : isMacPort macPort1 = true := by decide

theorem isSwitchPort_switchPort0 : isSwitchPort switchPort0 = true := by decide

theorem toNat_of_isMacPort {v : U32} (h : isMacPort v = true) :
    1 ≤ v.toNat ∧ v.toNat ≤ 8 := by
  simp only [isMacPort,macPort1,macPortLast,Bool.and_eq_true] at h
  have h1 := BitVec.le_def.mp (of_decide_eq_true h.1)
  have h2 := BitVec.le_def.mp (of_decide_eq_true h.2)
  exact ⟨by simpa using h1,by simpa using h2⟩

theorem toNat_of_isSwitchPort {v : U32} (h : isSwitchPort v = true) :
    25 ≤ v.toNat ∧ v.toNat ≤ 28 := by
  simp only [isSwitchPort,switchPort0,switchPortLast,Bool.and_eq_true] at h
  have h1 := BitVec.le_def.mp (of_decide_eq_true h.1)
  have h2 := BitVec.le_def.mp (of_decide_eq_true h.2)
  exact ⟨by simpa using h1,by simpa using h2⟩

/-- `ETHREMOTECFG_MAC_PORT_1`. -/
def macPort : PortId := ⟨macPort1,Or.inl isMacPort_macPort1⟩

/-- `ETHREMOTECFG_SWITCH_PORT_0`. -/
def switchPort : PortId := ⟨switchPort0,Or.inr isSwitchPort_switchPort0⟩

/-- Every port number of the protocol has its own bit in a port mask. -/
theorem PortId.toNat_lt (v : PortId) : v.val.toNat < 32 := by
  rcases v.property with h | h
  · have := toNat_of_isMacPort h
    omega
  · have := toNat_of_isSwitchPort h
    omega

/-- Different port numbers have different bits. -/
theorem PortId.toNat_ne {v w : PortId} (h : v ≠ w) : v.val.toNat ≠ w.val.toNat :=
  fun heq => h (Subtype.ext (BitVec.eq_of_toNat_eq heq))

/-- Ethernet address, byte by byte. -/
structure MacAddr where
  /-- First octet, whose lowest bit marks a multicast address. -/
  b0 : U8
  /-- Second octet. -/
  b1 : U8
  /-- Third octet. -/
  b2 : U8
  /-- Fourth octet. -/
  b3 : U8
  /-- Fifth octet. -/
  b4 : U8
  /-- Sixth octet. -/
  b5 : U8
  deriving DecidableEq

/-- `EnetUtils_isMcastAddr`: the group bit of the first octet. -/
def MacAddr.isMcast (a : MacAddr) : Bool := isSet a.b0 0

/-- The broadcast address. -/
def MacAddr.bcast : MacAddr := ⟨0xFF#8,0xFF#8,0xFF#8,0xFF#8,0xFF#8,0xFF#8⟩

end EthernetFirmware.RemoteConfig
