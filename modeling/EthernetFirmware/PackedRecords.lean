import Mathlib.Data.BitVec
import Mathlib.Data.List.TakeDrop

/-!
# Packed records

Values laid out in memory without gaps, words with their lowest byte first.
A layout writes a value as a fixed number of bytes and reads it back from the
start of any buffer; it carries the proofs that the two are inverse. Layouts
of records are built from layouts of their fields, and a record may be
written into a buffer part by part in any order.
-/

namespace EthernetFirmware.PackedRecords

/-- A byte. -/
abbrev Byte := BitVec 8

variable {α β : Type*}

/-- Layout of the values of a type. -/
structure Layout (α : Type*) where
  /-- Number of bytes of a value. -/
  size : ℕ
  /-- Bytes of a value, in memory order. -/
  encode : α → List Byte
  /-- Value at the start of a buffer. -/
  decode : List Byte → α
  /-- Every value takes the whole size. -/
  length_encode : ∀ a, (encode a).length = size
  /-- A value is read back from its bytes, whatever follows them. -/
  decode_append : ∀ a rest, decode (encode a ++ rest) = a
  /-- Bytes that are read are those the value is written as. -/
  encode_decode : ∀ bs, size ≤ bs.length → encode (decode bs) = bs.take size

/-- Number written lowest byte first. -/
def ofBytes : List Byte → ℕ
  | [] => 0
  | b :: bs => b.toNat + 2 ^ 8 * ofBytes bs

/-- The lowest bytes of a number, lowest first. -/
def toBytes : ℕ → ℕ → List Byte
  | 0, _ => []
  | n + 1, v => BitVec.ofNat 8 v :: toBytes n (v / 2 ^ 8)

theorem length_toBytes (n v : ℕ) : (toBytes n v).length = n := by
  induction n generalizing v with
  | zero => rfl
  | succ n ih => rw [toBytes,List.length_cons,ih]

/-- The bytes of a number give its lowest part back. -/
theorem ofBytes_toBytes (n v : ℕ) : ofBytes (toBytes n v) = v % 2 ^ (8 * n) := by
  induction n generalizing v with
  | zero => simp [toBytes,ofBytes,Nat.mod_one]
  | succ n ih =>
    rw [toBytes,ofBytes,ih,BitVec.toNat_ofNat,Nat.mul_succ,Nat.add_comm (8 * n),Nat.pow_add,
      Nat.mod_mul]

/-- The bytes of a number are those it was read from. -/
theorem toBytes_ofBytes (bs : List Byte) : toBytes bs.length (ofBytes bs) = bs := by
  induction bs with
  | nil => rfl
  | cons b bs ih =>
    have hb := b.isLt
    have hmod : BitVec.ofNat 8 (b.toNat + 2 ^ 8 * ofBytes bs) = b := by
      apply BitVec.eq_of_toNat_eq
      rw [BitVec.toNat_ofNat]
      omega
    have hdiv : (b.toNat + 2 ^ 8 * ofBytes bs) / 2 ^ 8 = ofBytes bs := by omega
    rw [List.length_cons,ofBytes,toBytes,hmod,hdiv,ih]

theorem ofBytes_lt (bs : List Byte) : ofBytes bs < 2 ^ (8 * bs.length) := by
  have h := ofBytes_toBytes bs.length (ofBytes bs)
  rw [toBytes_ofBytes] at h
  rw [h]
  exact Nat.mod_lt _ (Nat.two_pow_pos _)

/-- A message copied to the start of a buffer. -/
def overlay (msg buf : List Byte) : List Byte := msg ++ buf.drop msg.length

theorem length_overlay {msg buf : List Byte} (h : msg.length ≤ buf.length) :
    (overlay msg buf).length = buf.length := by
  rw [overlay,List.length_append,List.length_drop]
  omega

/-- The start of a buffer is what a long enough message put there. -/
theorem take_overlay {msg : List Byte} {n : ℕ} (h : n ≤ msg.length) (buf : List Byte) :
    (overlay msg buf).take n = msg.take n := List.take_append_of_le_length h

/-- Two messages copied one after the other leave what the second leaves of
the first. -/
theorem overlay_overlay (msg' msg buf : List Byte) :
    overlay msg' (overlay msg buf) = overlay (overlay msg' msg) buf := by
  have hsum : msg.length + (msg'.length - msg.length) =
      msg'.length + (msg.length - msg'.length) := by omega
  simp only [overlay,List.drop_append,List.drop_drop,List.length_append,List.length_drop,
    List.append_assoc,hsum]

/-- A message copied twice is copied once. -/
theorem overlay_overlay_of_length {msg' msg : List Byte} (h : msg'.length = msg.length)
    (buf : List Byte) : overlay msg' (overlay msg buf) = overlay msg' buf := by
  rw [overlay_overlay]
  congr 1
  rw [overlay,h,List.drop_length,List.append_nil]

namespace Layout

/-- A word of some bytes. -/
def word (n : ℕ) : Layout (BitVec (8 * n)) where
  size := n
  encode v := toBytes n v.toNat
  decode bs := BitVec.ofNat (8 * n) (ofBytes (bs.take n))
  length_encode v := length_toBytes n v.toNat
  decode_append v rest := by
    have htake : (toBytes n v.toNat ++ rest).take n = toBytes n v.toNat :=
      List.take_left' (length_toBytes n v.toNat)
    rw [htake,ofBytes_toBytes,Nat.mod_eq_of_lt v.isLt,BitVec.ofNat_toNat,BitVec.setWidth_eq]
  encode_decode bs h := by
    have hlen : (bs.take n).length = n := List.length_take_of_le h
    have hlt := ofBytes_lt (bs.take n)
    rw [hlen] at hlt
    have hbytes := toBytes_ofBytes (bs.take n)
    rw [hlen] at hbytes
    rw [BitVec.toNat_ofNat,Nat.mod_eq_of_lt hlt,hbytes]

/-- Nothing. -/
def empty : Layout Unit where
  size := 0
  encode _ := []
  decode _ := ()
  length_encode _ := rfl
  decode_append _ _ := rfl
  encode_decode _ _ := rfl

/-- One value behind another. -/
def prod (l : Layout α) (m : Layout β) : Layout (α × β) where
  size := l.size + m.size
  encode p := l.encode p.1 ++ m.encode p.2
  decode bs := (l.decode bs,m.decode (bs.drop l.size))
  length_encode p := by rw [List.length_append,l.length_encode,m.length_encode]
  decode_append p rest := by
    have hdrop : (l.encode p.1 ++ (m.encode p.2 ++ rest)).drop l.size = m.encode p.2 ++ rest :=
      List.drop_left' (l.length_encode p.1)
    rw [List.append_assoc,l.decode_append,hdrop,m.decode_append]
  encode_decode bs h := by
    have hdrop : m.size ≤ (bs.drop l.size).length := by rw [List.length_drop]; omega
    rw [l.encode_decode bs (by omega),m.encode_decode _ hdrop,List.take_add]

/-- A record given by its fields. -/
def record (l : Layout α) (make : α → β) (fields : β → α) (hmake : ∀ b, make (fields b) = b)
    (hfields : ∀ a, fields (make a) = a) : Layout β where
  size := l.size
  encode b := l.encode (fields b)
  decode bs := make (l.decode bs)
  length_encode b := l.length_encode (fields b)
  decode_append b rest := by rw [l.decode_append,hmake]
  encode_decode bs h := by rw [hfields,l.encode_decode bs h]

/-- A value written at the start of a buffer. -/
def write (l : Layout α) (a : α) (buf : List Byte) : List Byte := overlay (l.encode a) buf

/-- A value written behind another one. -/
def writeAfter (l : Layout α) (m : Layout β) (b : β) (buf : List Byte) : List Byte :=
  buf.take l.size ++ m.write b (buf.drop l.size)

variable {l : Layout α} {m : Layout β} {a : α} {b : β} {buf : List Byte}

theorem decode_write (l : Layout α) (a : α) (buf : List Byte) : l.decode (l.write a buf) = a :=
  l.decode_append a _

theorem write_eq (l : Layout α) (a : α) (buf : List Byte) :
    l.write a buf = l.encode a ++ buf.drop l.size := by
  rw [write,overlay,l.length_encode]

theorem length_write (h : l.size ≤ buf.length) : (l.write a buf).length = buf.length := by
  rw [← l.length_encode a] at h
  exact length_overlay h

theorem length_writeAfter (h : l.size + m.size ≤ buf.length) :
    (l.writeAfter m b buf).length = buf.length := by
  have hdrop : m.size ≤ (buf.drop l.size).length := by rw [List.length_drop]; omega
  rw [writeAfter,List.length_append,length_write hdrop,List.length_take,List.length_drop]
  omega

/-- The start of a buffer holds what was written there last. -/
theorem take_write (l : Layout α) (a : α) (buf : List Byte) :
    (l.write a buf).take l.size = l.encode a := List.take_left' (l.length_encode a)

/-- A record may be written from its last part to its first. -/
theorem write_writeAfter (h : l.size ≤ buf.length) :
    l.write a (l.writeAfter m b buf) = (l.prod m).write (a,b) buf := by
  have hlen : (buf.take l.size).length = l.size := List.length_take_of_le h
  have hdrop : (l.writeAfter m b buf).drop l.size = m.write b (buf.drop l.size) :=
    List.drop_left' hlen
  rw [write_eq,hdrop,write_eq,write_eq,List.drop_drop]
  exact (List.append_assoc _ _ _).symm

/-- A value is read from its bytes alone. -/
theorem decode_take (l : Layout α) (h : l.size ≤ buf.length) (n : ℕ) (hn : l.size ≤ n) :
    l.decode (buf.take n) = l.decode buf := by
  have hbytes : l.encode (l.decode buf) = buf.take l.size := l.encode_decode buf h
  have hstart : (buf.take n).take l.size = l.encode (l.decode buf) := by
    rw [List.take_take,Nat.min_eq_left hn,hbytes]
  have hsplit : l.encode (l.decode buf) ++ (buf.take n).drop l.size = buf.take n := by
    rw [← hstart,List.take_append_drop]
  rw [← hsplit,l.decode_append]

/-- A value in a long enough message is read from the message, whatever the
buffer held before. -/
theorem decode_overlay (l : Layout α) {msg : List Byte} (h : l.size ≤ msg.length) :
    l.decode (overlay msg buf) = l.decode msg := by
  have hlen : l.size ≤ (overlay msg buf).length := by rw [overlay,List.length_append]; omega
  rw [← l.decode_take hlen l.size le_rfl,take_overlay h,l.decode_take h l.size le_rfl]

/-- The values of an array, one behind the other. -/
def encodeAll (l : Layout α) (as : List α) : List Byte := as.flatMap l.encode

/-- An array of `n` values. -/
def decodeAll (l : Layout α) : ℕ → List Byte → List α
  | 0, _ => []
  | n + 1, bs => l.decode bs :: decodeAll l n (bs.drop l.size)

/-- The first bytes of an array copied over another array. -/
def copyBytes (l : Layout α) (n : ℕ) (src dst : List α) : List α :=
  l.decodeAll dst.length (overlay ((l.encodeAll src).take n) (l.encodeAll dst))

theorem length_decodeAll (l : Layout α) (n : ℕ) (bs : List Byte) :
    (l.decodeAll n bs).length = n := by
  induction n generalizing bs with
  | zero => rfl
  | succ n ih => rw [decodeAll,List.length_cons,ih]

theorem length_encodeAll (l : Layout α) (as : List α) :
    (l.encodeAll as).length = l.size * as.length := by
  induction as with
  | nil => rfl
  | cons a as ih =>
    have hcons : l.encodeAll (a :: as) = l.encode a ++ l.encodeAll as := rfl
    rw [hcons,List.length_append,l.length_encode,ih,List.length_cons,Nat.mul_succ,Nat.add_comm]

/-- An array is read back from its bytes. -/
theorem decodeAll_encodeAll (l : Layout α) (as : List α) :
    l.decodeAll as.length (l.encodeAll as) = as := by
  induction as with
  | nil => rfl
  | cons a as ih =>
    have hcons : l.encodeAll (a :: as) = l.encode a ++ l.encodeAll as := rfl
    rw [hcons,List.length_cons,decodeAll,l.decode_append,List.drop_left' (l.length_encode a),ih]

/-- Bytes of the values from one on. -/
theorem drop_encodeAll (l : Layout α) (as : List α) (k : ℕ) :
    (l.encodeAll as).drop (l.size * k) = l.encodeAll (as.drop k) := by
  induction as generalizing k with
  | nil => rw [List.drop_nil]; exact List.drop_nil
  | cons a as ih =>
    have hcons : l.encodeAll (a :: as) = l.encode a ++ l.encodeAll as := rfl
    cases k with
    | zero => rfl
    | succ k =>
      rw [hcons,Nat.mul_succ,Nat.add_comm,← List.drop_drop,List.drop_left' (l.length_encode a),ih,
        List.drop_succ_cons]

/-- Bytes of the values up to one. -/
theorem take_encodeAll (l : Layout α) (as : List α) (k : ℕ) :
    (l.encodeAll as).take (l.size * k) = l.encodeAll (as.take k) := by
  have hsplit : l.encodeAll as = l.encodeAll (as.take k) ++ l.encodeAll (as.drop k) := by
    rw [encodeAll,encodeAll,encodeAll,← List.flatMap_append,List.take_append_drop]
  have htail := drop_encodeAll l as k
  rw [← List.take_append_drop (l.size * k) (l.encodeAll as),htail] at hsplit
  exact List.append_cancel_right hsplit

/-- Copying the bytes of some values copies these values. -/
theorem copyBytes_mul (l : Layout α) {k : ℕ} {src dst : List α} (hsrc : k ≤ src.length)
    (hdst : k ≤ dst.length) : l.copyBytes (l.size * k) src dst = src.take k ++ dst.drop k := by
  have htake : (src.take k).length = k := List.length_take_of_le hsrc
  have hlen : (src.take k ++ dst.drop k).length = dst.length := by
    rw [List.length_append,htake,List.length_drop]
    omega
  have hbytes : overlay (l.encodeAll (src.take k)) (l.encodeAll dst) =
      l.encodeAll (src.take k ++ dst.drop k) := by
    rw [overlay,length_encodeAll,htake,drop_encodeAll,encodeAll,encodeAll,encodeAll,
      List.flatMap_append]
  rw [copyBytes,take_encodeAll,hbytes,← hlen,decodeAll_encodeAll]

end Layout

end EthernetFirmware.PackedRecords
