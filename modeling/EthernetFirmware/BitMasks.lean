import Mathlib.Data.BitVec
import Mathlib.Data.Finset.Range

/-!
# Bit masks as sets of indices

A machine word read as the set of the indices of its set bits: the bit
of an index, membership, insertion, removal, and inclusion of masks. Each
operation is described by the membership it leaves, so later modules
reason about indices and never unfold a shift or a complement. An index
at or beyond the width belongs to no mask.
-/

namespace EthernetFirmware.BitMasks

variable {w : ℕ} {a b c : BitVec w} {i j : ℕ}

/-- Mask with the bit of one index set. -/
def bit (i : ℕ) : BitVec w := 1#w <<< i

/-- Membership test of an index in a mask. -/
def isSet (m : BitVec w) (i : ℕ) : Bool := (m &&& bit i) != 0#w

/-- Mask with an index added. -/
def setBit (m : BitVec w) (i : ℕ) : BitVec w := m ||| bit i

/-- Mask with an index removed. -/
def clearBit (m : BitVec w) (i : ℕ) : BitVec w := m &&& ~~~(bit i)

/-- Every index of the first mask belongs to the second. -/
def Within (a b : BitVec w) : Prop := a &&& ~~~b = 0#w

instance : Decidable (Within a b) := inferInstanceAs (Decidable (_ = _))

theorem getLsbD_bit (i j : ℕ) :
    (bit i : BitVec w).getLsbD j = decide (i = j ∧ i < w) := by
  unfold bit
  rw [← BitVec.twoPow_eq,BitVec.getLsbD_twoPow]
  by_cases hij : i = j <;> simp [hij]

/-- The membership test reads one bit. -/
theorem isSet_eq_getLsbD (m : BitVec w) (i : ℕ) : isSet m i = m.getLsbD i := by
  unfold isSet
  cases hm : m.getLsbD i with
  | true =>
    have hi : i < w := BitVec.lt_of_getLsbD hm
    have hne : m &&& bit i ≠ 0#w := by
      intro h
      have hbit : (m &&& bit i).getLsbD i = false := by rw [h,BitVec.getLsbD_zero]
      rw [BitVec.getLsbD_and,getLsbD_bit,hm] at hbit
      simp [hi] at hbit
    simpa using hne
  | false =>
    have hz : m &&& bit i = 0#w := by
      apply BitVec.eq_of_getLsbD_eq
      intro j hj
      by_cases hij : i = j
      · subst hij
        simp [hm]
      · simp [getLsbD_bit,hij]
    simp [hz]

@[simp] theorem isSet_zero (i : ℕ) : isSet (0#w) i = false := by
  simp [isSet_eq_getLsbD]

@[simp] theorem isSet_or : isSet (a ||| b) i = (isSet a i || isSet b i) := by
  simp [isSet_eq_getLsbD]

@[simp] theorem isSet_and : isSet (a &&& b) i = (isSet a i && isSet b i) := by
  simp [isSet_eq_getLsbD]

theorem isSet_shiftLeft_one : isSet (a <<< 1) (i + 1) = (decide (i + 1 < w) && isSet a i) := by
  simp [isSet_eq_getLsbD]

theorem isSet_shiftLeft_one_zero : isSet (a <<< 1) 0 = false := by
  simp [isSet_eq_getLsbD]

theorem isSet_bit (i j : ℕ) :
    isSet (bit i : BitVec w) j = decide (i = j ∧ i < w) := by
  rw [isSet_eq_getLsbD,getLsbD_bit]

theorem isSet_bit_self (hi : i < w) : isSet (bit i : BitVec w) i = true := by
  simp [isSet_bit,hi]

theorem isSet_bit_of_ne (hij : i ≠ j) : isSet (bit i : BitVec w) j = false := by
  simp [isSet_bit,hij]

theorem isSet_setBit_self {m : BitVec w} (hi : i < w) :
    isSet (setBit m i) i = true := by
  simp [setBit,isSet_bit_self hi]

theorem isSet_setBit_of_ne {m : BitVec w} (hij : i ≠ j) :
    isSet (setBit m i) j = isSet m j := by
  simp [setBit,isSet_bit_of_ne hij]

theorem isSet_clearBit (m : BitVec w) (i j : ℕ) :
    isSet (clearBit m i) j = (isSet m j && !decide (i = j)) := by
  unfold clearBit
  rw [isSet_eq_getLsbD,isSet_eq_getLsbD,BitVec.getLsbD_and,BitVec.getLsbD_not,getLsbD_bit]
  by_cases hj : j < w
  · by_cases hij : i = j
    · subst hij
      simp only [hj,decide_true,and_self,Bool.not_true,Bool.and_false]
    · simp only [hij,hj,decide_true,decide_false,false_and,Bool.not_false,Bool.and_true]
  · rw [BitVec.getLsbD_of_ge m j (by omega),Bool.false_and,Bool.false_and]

@[simp] theorem isSet_clearBit_self (m : BitVec w) (i : ℕ) :
    isSet (clearBit m i) i = false := by
  simp [isSet_clearBit]

theorem isSet_clearBit_of_ne {m : BitVec w} (hij : i ≠ j) :
    isSet (clearBit m i) j = isSet m j := by
  simp [isSet_clearBit,hij]

/-- Masks with the same members are equal. -/
theorem eq_of_isSet_eq (h : ∀ i, isSet a i = isSet b i) : a = b := by
  apply BitVec.eq_of_getLsbD_eq
  intro i _
  simpa only [isSet_eq_getLsbD] using h i

/-- A mask is zero exactly when nothing belongs to it. -/
theorem eq_zero_iff : a = 0#w ↔ ∀ i, isSet a i = false := by
  constructor
  · rintro rfl i
    exact isSet_zero i
  · intro h
    exact eq_of_isSet_eq fun i => by simp [h i]

theorem ne_zero_of_isSet (h : isSet a i = true) : a ≠ 0#w := by
  intro hz
  simp [hz] at h

theorem setBit_ne_zero {m : BitVec w} (hi : i < w) : setBit m i ≠ 0#w :=
  ne_zero_of_isSet (isSet_setBit_self hi)

/-- Inclusion of masks is inclusion of their members. -/
theorem within_iff : Within a b ↔ ∀ i, isSet a i = true → isSet b i = true := by
  unfold Within
  rw [eq_zero_iff]
  refine forall_congr' fun i => ?_
  rw [isSet_eq_getLsbD,isSet_eq_getLsbD,isSet_eq_getLsbD,BitVec.getLsbD_and,BitVec.getLsbD_not]
  by_cases hi : i < w
  · rw [decide_eq_true hi,Bool.true_and]
    cases a.getLsbD i <;> cases b.getLsbD i <;> decide
  · rw [BitVec.getLsbD_of_ge a i (by omega),BitVec.getLsbD_of_ge b i (by omega)]
    simp

@[simp] theorem within_zero : Within (0#w) b := by
  simp [within_iff]

theorem within_setBit (hab : Within a b) (hi : isSet b i = true) :
    Within (setBit a i) b := by
  rw [within_iff] at hab ⊢
  intro j hj
  by_cases hij : i = j
  · subst hij
    exact hi
  · rw [isSet_setBit_of_ne hij] at hj
    exact hab j hj

theorem within_clearBit (hab : Within a b) : Within (clearBit a i) b := by
  rw [within_iff] at hab ⊢
  intro j hj
  rw [isSet_clearBit] at hj
  exact hab j (by simpa using (Bool.and_eq_true_iff.mp hj).1)

/-- Indices that belong to a mask. -/
def members (m : BitVec w) : Finset ℕ := (Finset.range w).filter fun i => isSet m i = true

theorem lt_of_isSet (h : isSet a i = true) : i < w := by
  rw [isSet_eq_getLsbD] at h
  exact BitVec.lt_of_getLsbD h

@[simp] theorem mem_members : i ∈ members a ↔ isSet a i = true := by
  simp only [members,Finset.mem_filter,Finset.mem_range]
  exact ⟨And.right,fun h => ⟨lt_of_isSet h,h⟩⟩

theorem members_eq_empty_iff : members a = ∅ ↔ a = 0#w := by
  rw [Finset.eq_empty_iff_forall_notMem,eq_zero_iff]
  simp

theorem members_nonempty_iff : (members a).Nonempty ↔ a ≠ 0#w := by
  rw [Finset.nonempty_iff_ne_empty,Ne,members_eq_empty_iff]

theorem members_setBit (hi : i < w) : members (setBit a i) = insert i (members a) := by
  ext j
  rw [mem_members,Finset.mem_insert,mem_members]
  by_cases hij : i = j
  · subst hij
    simp [isSet_setBit_self hi]
  · simp [isSet_setBit_of_ne hij,Ne.symm hij]

theorem members_bit (hi : i < w) : members (bit i : BitVec w) = {i} := by
  ext j
  rw [mem_members,isSet_bit,Finset.mem_singleton,decide_eq_true_iff]
  omega

theorem members_clearBit : members (clearBit a i) = (members a).erase i := by
  ext j
  rw [mem_members,Finset.mem_erase,mem_members,isSet_clearBit]
  by_cases hij : i = j
  · subst hij
    simp
  · simp [hij,Ne.symm hij]

/-- Removing an index that does not belong changes nothing. -/
theorem clearBit_of_not (h : isSet a i = false) : clearBit a i = a := by
  refine eq_of_isSet_eq fun j => ?_
  rw [isSet_clearBit]
  by_cases hij : i = j
  · subst hij
    simp [h]
  · simp [hij]

end EthernetFirmware.BitMasks
