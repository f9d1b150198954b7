import Mathlib.Data.Fin.Tuple.Basic
import Mathlib.Data.Fintype.Card

/-!
# Tables of slots

A table gives every slot of a finite index set its content. The module
counts the slots that pass a test, follows the count through an update of
one slot, and finds the first and the last slot that passes a test, as
the ascending and descending scans over an array do.
-/

namespace EthernetFirmware.SlotTables

open Function

variable {n : ℕ} {β : Type*} {p : β → Bool} {t : Fin n → β} {i j : Fin n} {b : β}

/-- Slots whose content passes the test. -/
def passing (p : β → Bool) (t : Fin n → β) : Finset (Fin n) :=
  Finset.univ.filter fun i => p (t i) = true

/-- Number of slots whose content passes the test. -/
def slotCount (p : β → Bool) (t : Fin n → β) : ℕ := (passing p t).card

/-- First slot, in ascending order, whose content passes the test. -/
def firstSlot (p : β → Bool) (t : Fin n → β) : Option (Fin n) :=
  Fin.find? fun i => p (t i)

/-- Last slot whose content passes the test: what an ascending scan keeps
when it does not stop at a match. -/
def lastSlot (p : β → Bool) (t : Fin n → β) : Option (Fin n) :=
  Fin.findRev? fun i => p (t i)

@[simp] theorem mem_passing : i ∈ passing p t ↔ p (t i) = true := by
  simp [passing]

theorem passing_update_of_pass (hb : p b = true) :
    passing p (update t i b) = insert i (passing p t) := by
  ext j
  by_cases hj : j = i
  · subst hj
    simp [hb]
  · simp [hj]

theorem passing_update_of_fail (hb : p b = false) :
    passing p (update t i b) = (passing p t).erase i := by
  ext j
  by_cases hj : j = i
  · subst hj
    simp [hb]
  · simp [hj]

/-- Filling a slot that failed the test raises the count by one. -/
theorem slotCount_update_gain (hi : p (t i) = false) (hb : p b = true) :
    slotCount p (update t i b) = slotCount p t + 1 := by
  unfold slotCount
  rw [passing_update_of_pass hb]
  exact Finset.card_insert_of_notMem (by simp [hi])

/-- Emptying a slot that passed the test lowers the count by one. -/
theorem slotCount_update_loss (hi : p (t i) = true) (hb : p b = false) :
    slotCount p (update t i b) + 1 = slotCount p t := by
  unfold slotCount
  rw [passing_update_of_fail hb]
  exact Finset.card_erase_add_one (by simp [hi])

/-- Rewriting a slot without changing its verdict keeps the count. -/
theorem slotCount_update_same (hb : p b = p (t i)) :
    slotCount p (update t i b) = slotCount p t := by
  unfold slotCount
  congr 1
  ext j
  by_cases hj : j = i
  · subst hj
    simp [hb]
  · simp [hj]

theorem slotCount_eq_zero_iff : slotCount p t = 0 ↔ ∀ i, p (t i) = false := by
  simp [slotCount,passing,Finset.filter_eq_empty_iff]

/-- Two slots that pass when only one does are the same. -/
theorem eq_of_slotCount_eq_one (h : slotCount p t = 1) (hi : p (t i) = true)
    (hj : p (t j) = true) : i = j :=
  Finset.card_le_one.mp h.le i (mem_passing.mpr hi) j (mem_passing.mpr hj)

theorem slotCount_le (p : β → Bool) (t : Fin n → β) : slotCount p t ≤ n :=
  (Finset.card_le_univ _).trans_eq (Fintype.card_fin n)

/-- Fewer slots than all pass when some slot fails. -/
theorem slotCount_lt_iff : slotCount p t < n ↔ ∃ i, p (t i) = false := by
  have hcard : slotCount p t = n ↔ passing p t = Finset.univ := by
    rw [← Finset.card_eq_iff_eq_univ,Fintype.card_fin]
    rfl
  rw [lt_iff_le_and_ne,Ne,hcard,Finset.eq_univ_iff_forall]
  simp [slotCount_le]

theorem firstSlot_eq_some_iff :
    firstSlot p t = some i ↔ p (t i) = true ∧ ∀ j < i, p (t j) = false :=
  Fin.find?_eq_some_iff

theorem firstSlot_eq_none_iff : firstSlot p t = none ↔ ∀ i, p (t i) = false :=
  Fin.find?_eq_none_iff

/-- A slot that passes is the first one when no other slot passes. -/
theorem firstSlot_eq_of_unique (hi : p (t i) = true)
    (hu : ∀ j, p (t j) = true → j = i) : firstSlot p t = some i := by
  rw [firstSlot_eq_some_iff]
  refine ⟨hi,fun j hj => ?_⟩
  by_contra hp
  exact absurd (hu j (by simpa using hp)) (Fin.ne_of_lt hj)

theorem lastSlot_eq_some_iff :
    lastSlot p t = some i ↔ p (t i) = true ∧ ∀ j > i, p (t j) = false :=
  Fin.findRev?_eq_some_iff

theorem lastSlot_eq_none_iff : lastSlot p t = none ↔ ∀ i, p (t i) = false :=
  Fin.findRev?_eq_none_iff

end EthernetFirmware.SlotTables
