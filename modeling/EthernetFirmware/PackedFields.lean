import Mathlib.Data.BitVec

/-!
# Fields of a machine word

Values shifted to their offsets and put together by a disjunction, and read
back with a mask and a shift. A value that is wider than its field reaches
into the fields above it, and the lemmas say what is read there.
-/

namespace EthernetFirmware.PackedFields

variable {w : ℕ}

/-- A field of a word. -/
structure Field (w : ℕ) where
  /-- Index of the lowest bit. -/
  offset : ℕ
  /-- Number of bits. -/
  width : ℕ
  /-- The field lies in the word. -/
  fits : offset + width ≤ w

/-- The lowest bits of a word. -/
def low (k : ℕ) (v : BitVec w) : BitVec w := v &&& BitVec.ofNat w (2 ^ k - 1)

/-- Mask of a field. -/
def Field.mask (f : Field w) : BitVec w := BitVec.ofNat w (2 ^ f.width - 1) <<< f.offset

/-- Value of a field. -/
def Field.get (f : Field w) (x : BitVec w) : BitVec w := (x &&& f.mask) >>> f.offset

variable {f : Field w} {v x y : BitVec w} {k offset : ℕ}

theorem getLsbD_low (k : ℕ) (v : BitVec w) (i : ℕ) :
    (low k v).getLsbD i = (decide (i < k) && v.getLsbD i) := by
  unfold low
  rw [BitVec.getLsbD_and,BitVec.getLsbD_ofNat,Nat.testBit_two_pow_sub_one]
  by_cases hi : i < w
  · rw [decide_eq_true hi,Bool.true_and,Bool.and_comm]
  · rw [BitVec.getLsbD_of_ge v i (by omega),Bool.false_and,Bool.and_false]

theorem toNat_low (k : ℕ) (v : BitVec w) : (low k v).toNat = v.toNat % 2 ^ k := by
  have hlt := Nat.mod_le v.toNat (2 ^ k)
  have hv := v.isLt
  have heq : low k v = BitVec.ofNat w (v.toNat % 2 ^ k) := by
    apply BitVec.eq_of_getLsbD_eq
    intro i hi
    rw [getLsbD_low,BitVec.getLsbD_ofNat,Nat.testBit_mod_two_pow,decide_eq_true hi,
      Bool.true_and]
    rfl
  rw [heq,BitVec.toNat_ofNat]
  exact Nat.mod_eq_of_lt (by omega)

/-- The lowest bits are the value exactly when it fits them. -/
theorem low_eq_self_iff : low k v = v ↔ v.toNat < 2 ^ k := by
  rw [← BitVec.toNat_inj,toNat_low]
  exact Nat.mod_eq_iff_lt (Nat.two_pow_pos k).ne'

/-- A shift by more than the size of a value leaves nothing. -/
theorem shiftRight_eq_zero (h : v.toNat < 2 ^ k) : v >>> k = 0 := by
  rw [← BitVec.toNat_inj,BitVec.toNat_ushiftRight,Nat.shiftRight_eq_div_pow]
  exact Nat.div_eq_of_lt h

/-- A field is read bit by bit. -/
theorem getLsbD_get (f : Field w) (x : BitVec w) (i : ℕ) :
    (f.get x).getLsbD i = (decide (i < f.width) && x.getLsbD (f.offset + i)) := by
  have hfits := f.fits
  unfold Field.get Field.mask
  rw [BitVec.getLsbD_ushiftRight,BitVec.getLsbD_and,BitVec.getLsbD_shiftLeft,
    BitVec.getLsbD_ofNat,Nat.testBit_two_pow_sub_one,Nat.add_sub_cancel_left]
  by_cases hi : i < f.width
  · simp [hi,show f.offset + i < w by omega,show i < w by omega]
  · simp [hi]

/-- A disjunction is read field by field. -/
theorem get_or (f : Field w) (x y : BitVec w) : f.get (x ||| y) = f.get x ||| f.get y := by
  apply BitVec.eq_of_getLsbD_eq
  intro i hi
  rw [BitVec.getLsbD_or,getLsbD_get,getLsbD_get,getLsbD_get,BitVec.getLsbD_or,
    Bool.and_or_distrib_left]

/-- A field shows the part of a value placed at or below it that reaches
into it. -/
theorem get_shiftLeft_of_le (h : offset ≤ f.offset) :
    f.get (v <<< offset) = low f.width (v >>> (f.offset - offset)) := by
  have hfits := f.fits
  apply BitVec.eq_of_getLsbD_eq
  intro i hi
  rw [getLsbD_get,getLsbD_low,BitVec.getLsbD_shiftLeft,BitVec.getLsbD_ushiftRight,
    Nat.sub_add_comm h]
  by_cases hwidth : i < f.width
  · simp [show f.offset + i < w by omega,show ¬ f.offset + i < offset by omega]
  · simp [hwidth]

/-- A field shows its own value, cut to its width. -/
theorem get_shiftLeft_self (f : Field w) (v : BitVec w) :
    f.get (v <<< f.offset) = low f.width v := by
  rw [get_shiftLeft_of_le le_rfl,Nat.sub_self,BitVec.ushiftRight_zero]

/-- A field shows nothing of a value placed above it. -/
theorem get_shiftLeft_of_ge (h : f.offset + f.width ≤ offset) : f.get (v <<< offset) = 0 := by
  apply BitVec.eq_of_getLsbD_eq
  intro i hi
  rw [getLsbD_get,BitVec.getLsbD_shiftLeft]
  by_cases hwidth : i < f.width
  · simp [show f.offset + i < offset by omega]
  · simp [hwidth]

/-- The value of a field put back is what the mask leaves of the word. -/
theorem shiftLeft_get (f : Field w) (x : BitVec w) : f.get x <<< f.offset = x &&& f.mask := by
  apply BitVec.eq_of_getLsbD_eq
  intro i hi
  unfold Field.mask
  rw [BitVec.getLsbD_shiftLeft,getLsbD_get,BitVec.getLsbD_and,BitVec.getLsbD_shiftLeft,
    BitVec.getLsbD_ofNat,Nat.testBit_two_pow_sub_one]
  by_cases hbelow : i < f.offset
  · simp [hbelow]
  · rw [show f.offset + (i - f.offset) = i by omega]
    simp [hi,hbelow,show i - f.offset < w by omega,Bool.and_comm]

end EthernetFirmware.PackedFields
